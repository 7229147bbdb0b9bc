import ClassText.ClassFile.Wrap
import ClassText.Proofs.Listing.RoundTrip
import ClassText.Proofs.Pool.Listing

/-!
# The code of a class text is read back

`classText_code`: if a listing is wrapped into a class, the lines between `.code` and
`.end code` in the text of that class are its instructions, one a line and in order, and each
line is read as its instruction.

No line before the code is taken for its start: they begin with a number sign, a word, a brace or
another directive. No line of the code is taken for its end, since what closes the code is not
read as an instruction (`ofLine_of_closesCode`).
-/

namespace ClassText

-- ---------------------------------------------------------------------------
-- Blocks
-- ---------------------------------------------------------------------------

/-- What stands between the line feeds of a text. -/
def pieces (text : String) : List String :=
  (text.toList.splitOn '\n').map String.ofList

/-- The elements between the first one that opens a block and the next one that closes it. -/
def block? (opens closes : α → Bool) (xs : List α) : Option (List α) :=
  match xs.dropWhile (!opens ·) with
  | [] => none
  | _ :: rest => if rest.any closes then some (rest.takeWhile (!closes ·)) else none

def opensCode (line : String) : Bool :=
  ".code ".toList.isPrefixOf (line.toList.dropWhile isBlank)

def closesCode (line : String) : Bool :=
  dropEndWhile isBlank (line.toList.dropWhile isBlank) == ".end code".toList

/-- The lines of the first code in the text of a class. -/
def codeLines? (text : String) : Option (List String) :=
  block? opensCode closesCode (pieces text)

theorem pieces_join {texts : List String} (h : ∀ text ∈ texts, '\n' ∉ text.toList) :
    pieces (String.join (texts.map (· ++ "\n"))) = texts ++ [""] := by
  have hparts : ∀ part ∈ texts.map String.toList, '\n' ∉ part := by
    intro part hpart
    obtain ⟨text, htext, rfl⟩ := List.mem_map.mp hpart
    exact h text htext
  have hjoin : (String.join (texts.map (· ++ "\n"))).toList =
      ((texts.map String.toList).flatMap fun part => part ++ ['\n']) ++ [] := by
    simp [String.toList_join, List.flatMap_map]
  rw [pieces, hjoin, splitOn_flatMap_append hparts]
  simp [Function.comp_def]

theorem block?_append {opens closes : α → Bool} {before body after : List α} {opening closing : α}
    (hbefore : ∀ x ∈ before, opens x = false) (hopening : opens opening = true)
    (hbody : ∀ x ∈ body, closes x = false) (hclosing : closes closing = true) :
    block? opens closes (before ++ opening :: (body ++ closing :: after)) = some body := by
  have hdrop : (before ++ opening :: (body ++ closing :: after)).dropWhile (!opens ·) =
      opening :: (body ++ closing :: after) := by
    rw [List.dropWhile_append_of_pos (by simpa using hbefore)]
    simp [hopening]
  have htake : (body ++ closing :: after).takeWhile (!closes ·) = body := by
    rw [List.takeWhile_append_of_pos (by simpa using hbody)]
    simp [hclosing]
  rw [block?, hdrop]
  simp [htake, hclosing]

-- ---------------------------------------------------------------------------
-- What closes the code
-- ---------------------------------------------------------------------------

theorem toList_of_closesCode (h : closesCode line = true) : ∃ left right : List Char,
    left.all isBlank = true ∧ right.all isBlank = true ∧
      line.toList = left ++ (".end code".toList ++ right) := by
  have hstart := List.takeWhile_append_dropWhile (p := isBlank) (l := line.toList)
  have hend := dropEndWhile_append isBlank (line.toList.dropWhile isBlank)
  rw [beq_iff_eq.mp h] at hend
  rw [← hend] at hstart
  refine ⟨_, _, List.all_takeWhile, ?_, hstart.symm⟩
  rw [List.all_reverse]
  exact List.all_takeWhile

theorem scan_closing {left right : List Char} (hleft : left.all isBlank = true)
    (hright : right.all isBlank = true) :
    (Token.scanFrom 0 .between (left ++ (".end code".toList ++ right))).2 =
      [⟨".end", byteSize left⟩, ⟨"code", byteSize left + 5⟩] := by
  have hword : Token.Whole ".end".toList := Instruction.whole_of_plain (by decide) (by decide)
  have hlast : Token.Whole "code".toList := Instruction.whole_of_plain (by decide) (by decide)
  have htext : ".end code".toList = ".end".toList ++ ' ' :: "code".toList := by decide
  rw [Token.scanFrom_blanks hleft, htext, List.append_assoc, List.cons_append,
    Token.scanFrom_whole_blank hword (by decide) (by decide),
    Token.scanFrom_whole_blanks hlast (by decide) hright, Nat.zero_add]
  rfl

/-- A line that closes the code has two words, the first of which is no mnemonic. -/
theorem ofLine_of_closesCode (h : closesCode line = true) :
    ∃ e, Instruction.ofLine line = .error e := by
  have hnone : Operation.ofMnemonic? ".end" = none := by decide +kernel
  obtain ⟨left, right, hleft, hright, htext⟩ := toList_of_closesCode h
  rw [Instruction.ofLine, Token.scan, htext, scan_closing hleft hright, Instruction.ofTokens]
  simp [hnone, Instruction.ofOther, Token.reject, Except.map]

-- ---------------------------------------------------------------------------
-- Lines of code
-- ---------------------------------------------------------------------------

/-- The line of an instruction in a method of a class. -/
def codeLine (i : Instruction) : String :=
  match i with
  | .label _ => indent 1 ++ i.text
  | _ => indent 2 ++ i.text

theorem codeLine_eq (i : Instruction) : ∃ level, codeLine i = indent level ++ i.text := by
  cases i with
  | label name => exact ⟨1, rfl⟩
  | _ => exact ⟨2, rfl⟩

theorem lines_eq_codeLine (code : Code) :
    code.lines 1 = (code.instructions.map codeLine).map (· ++ "\n") := by
  rw [Code.lines, List.map_map]
  refine List.map_congr_left fun i _ => ?_
  cases i with
  | _ => rfl

theorem toList_indent (level : Nat) : (indent level).toList = List.replicate (2 * level) ' ' :=
  String.toList_ofList

theorem isBlank_indent (level : Nat) : (indent level).toList.all isBlank = true := by
  have hspace : isBlank ' ' = true := by decide
  simp [toList_indent, hspace]

theorem ofLine_codeLine (h : i.Readable) (hopen : i.BoundsOpen) :
    Instruction.ofLine (codeLine i) = .ok (some i) := by
  obtain ⟨level, hline⟩ := codeLine_eq i
  rw [hline, Instruction.ofLine_blanks (isBlank_indent level)]
  exact Instruction.readFrom_text h hopen

theorem closesCode_codeLine (h : i.Readable) (hopen : i.BoundsOpen) :
    closesCode (codeLine i) = false := by
  cases hcloses : closesCode (codeLine i) with
  | false => rfl
  | true =>
    -- a closing line is rejected, but the line of an instruction is read
    obtain ⟨e, herror⟩ := ofLine_of_closesCode hcloses
    rw [ofLine_codeLine h hopen] at herror
    cases herror

theorem newline_not_mem_codeLine (h : '\n' ∉ i.text.toList) : '\n' ∉ (codeLine i).toList := by
  obtain ⟨level, hline⟩ := codeLine_eq i
  simp [hline, toList_indent, h]

-- ---------------------------------------------------------------------------
-- The class around a listing
-- ---------------------------------------------------------------------------

/-- The names that options give hold no line feed. -/
structure WrapOptions.OnOneLine (options : WrapOptions) : Prop where
  className : '\n' ∉ options.className.toList
  superclass : ∀ name ∈ options.superclass, '\n' ∉ name.toList
  methodName : '\n' ∉ options.methodName.toList

namespace ClassFile

variable {options : WrapOptions} {instructions : List Instruction}

def headerLine (options : WrapOptions) : String :=
  "public super class " ++ (ClassName.mk options.className).dotted ++ " " ++
    match options.superclass with
    | none => ""
    | some name => " extends " ++ (ClassName.mk name).dotted

/-- The lines before the code. -/
def linesBefore (options : WrapOptions) (pool : Pool) : List String :=
  pool.rows ++ ["", headerLine options,
    ".sourcefile " ++ pool.utf8Text (sourceFileName options.className), " \x7b",
    "  public static void " ++ options.methodName ++ "();"]

def openingLine (code : Code) : String :=
  "  .code stack " ++ toString code.stack.toNat ++ " locals " ++ toString code.locals.toNat

def classLines (options : WrapOptions) (pool : Pool) (code : Code) : List String :=
  linesBefore options pool ++ openingLine code ::
    (code.instructions.map codeLine ++ "  .end code" :: ["", "\x7d"])

theorem codeText_eq (pool : Pool) (code : Code) : Attribute.text pool 1 (.code code) =
    String.join ((openingLine code :: code.instructions.map codeLine ++ ["  .end code"]).map
      (· ++ "\n")) := by
  have hindent : indent 1 = "  " := by decide
  show indent 1 ++ code.text 1 ++ "\n" = _
  unfold Code.text openingLine
  rw [lines_eq_codeLine, hindent]
  simp [← String.toList_inj]

theorem header_ofListing (options : WrapOptions) (instructions : List Instruction) :
    (ofListing options instructions).header = headerLine options ++ "\n" := by
  unfold headerLine
  cases hsuper : options.superclass with
  | none => simp [header, ofListing, fillPool, named, hsuper, Modifier.keywords, Modifier.keyword]
  | some name =>
    simp [header, ofListing, fillPool, named, hsuper, Modifier.keywords, Modifier.keyword]

theorem attributes_ofListing (pool : Pool) (options : WrapOptions)
    (instructions : List Instruction) :
    Attribute.texts pool 0 (ofListing options instructions).attributes =
      ".sourcefile " ++ pool.utf8Text (sourceFileName options.className) ++ "\n" := by
  show String.join [indent 0 ++ (".sourcefile " ++ _) ++ "\n"] = _
  simp [indent]

theorem methods_ofListing (options : WrapOptions) (instructions : List Instruction) :
    (ofListing options instructions).methodsText =
      "  public static void " ++ options.methodName ++ "();\n" ++
        Attribute.text (ofListing options instructions).pool 1
          (.code (.ofInstructions options.stack instructions)) ++ "\n" := by
  have hstart : indent 1 ++ Modifier.keywords [.public, .static] ++
      (Signature.mk [] [] .void).parameterClause ++
      (Signature.mk [] [] .void).result.sourceForm ++ " " = "  public static void " := by decide
  have hmethods : (ofListing options instructions).methods = [⟨[.public, .static],
      .mk [] [] .void, options.methodName,
      [.code (.ofInstructions options.stack instructions)]⟩] := rfl
  -- unfolding the class would lay out its pool, which this text leaves to `Attribute.text`
  generalize ofListing options instructions = c at hmethods
  simp only [methodsText, hmethods, List.map_singleton, Method.text, hstart]
  simp [Attribute.texts, Signature.parameters, ← String.toList_inj]

/-- The text of the class around a listing, line by line. -/
theorem text_ofListing (options : WrapOptions) (instructions : List Instruction) :
    (ofListing options instructions).text = String.join
      ((classLines options (ofListing options instructions).pool
        (.ofInstructions options.stack instructions)).map (· ++ "\n")) := by
  have hfields : (ofListing options instructions).fieldsText = "" := rfl
  simp only [text, header_ofListing, attributes_ofListing, hfields, methods_ofListing, codeText_eq,
    Pool.listing_eq, classLines, linesBefore]
  generalize (ofListing options instructions).pool = pool
  simp [String.toList_join, ← String.toList_inj]

-- ---------------------------------------------------------------------------
-- Where the code starts, and where lines end
-- ---------------------------------------------------------------------------

theorem opensCode_linesBefore (options : WrapOptions) (pool : Pool) :
    ∀ line ∈ linesBefore options pool, opensCode line = false := by
  intro line hline
  rcases List.mem_append.mp hline with hrow | hline
  · obtain ⟨⟨c, n⟩, -, rfl⟩ := List.mem_map.mp hrow
    simp [opensCode, Pool.row, Pool.reference, isBlank, List.isPrefixOf]
  · simp only [List.mem_cons, List.not_mem_nil, or_false] at hline
    rcases hline with rfl | rfl | rfl | rfl | rfl
    · decide
    · unfold headerLine
      simp [opensCode, isBlank, List.isPrefixOf]
    · simp [opensCode, isBlank, List.isPrefixOf]
    · decide
    · simp [opensCode, isBlank, List.isPrefixOf]

theorem opensCode_openingLine (code : Code) : opensCode (openingLine code) = true := by
  unfold openingLine
  simp [opensCode, isBlank]

theorem newline_not_mem_openingLine (code : Code) : '\n' ∉ (openingLine code).toList := by
  refine not_mem_of_printable ?_ (by decide)
  exact printable_concat (printable_concat (printable_concat (by decide) (printable_toString _))
    (by decide)) (printable_toString _)

theorem newline_not_mem_dotted (name : ClassName) (h : '\n' ∉ name.internal.toList) :
    '\n' ∉ name.dotted.toList := by
  intro hmem
  rw [ClassName.dotted, String.toList_map, List.mem_map] at hmem
  obtain ⟨c, hc, heq⟩ := hmem
  split at heq
  · exact absurd heq (by decide)
  · exact h (heq ▸ hc)

theorem newline_not_mem_headerLine (h : options.OnOneLine) :
    '\n' ∉ (headerLine options).toList := by
  have hname := newline_not_mem_dotted ⟨options.className⟩ h.className
  unfold headerLine
  split
  · simp [hname]
  · rename_i name hsuper
    have hsuperclass := newline_not_mem_dotted ⟨name⟩ (h.superclass name hsuper)
    simp [hname, hsuperclass]

theorem newline_not_mem_linesBefore (h : options.OnOneLine) (pool : Pool) :
    ∀ line ∈ linesBefore options pool, '\n' ∉ line.toList := by
  intro line hline
  rcases List.mem_append.mp hline with hrow | hline
  · exact Pool.newline_not_mem_rows hrow
  · simp only [List.mem_cons, List.not_mem_nil, or_false] at hline
    rcases hline with rfl | rfl | rfl | rfl | rfl
    · decide
    · exact newline_not_mem_headerLine h
    · exact not_mem_of_printable
        (printable_concat (by decide) (Pool.printable_utf8Text _)) (by decide)
    · decide
    · simp [h.methodName]

theorem newline_not_mem_classLines {code : Code} (hnames : options.OnOneLine)
    (h : ∀ i ∈ code.instructions, '\n' ∉ i.text.toList) (pool : Pool) :
    ∀ line ∈ classLines options pool code, '\n' ∉ line.toList := by
  intro line hline
  simp only [classLines, List.mem_append, List.mem_cons, List.not_mem_nil, or_false] at hline
  rcases hline with hbefore | rfl | hbody | rfl | rfl | rfl
  · exact newline_not_mem_linesBefore hnames pool line hbefore
  · exact newline_not_mem_openingLine code
  · obtain ⟨i, hi, rfl⟩ := List.mem_map.mp hbody
    exact newline_not_mem_codeLine (h i hi)
  · decide
  · decide
  · decide

/-- The first code in the text is that of the listing, and it ends where the listing does. -/
theorem codeLines?_ofListing (hnames : options.OnOneLine)
    (hfeeds : ∀ i ∈ instructions, '\n' ∉ i.text.toList)
    (hcloses : ∀ i ∈ instructions, closesCode (codeLine i) = false) :
    codeLines? (ofListing options instructions).text = some (instructions.map codeLine) := by
  have hbody : ∀ line ∈ instructions.map codeLine, closesCode line = false := by
    intro line hline
    obtain ⟨i, hi, rfl⟩ := List.mem_map.mp hline
    exact hcloses i hi
  have hclosing : closesCode "  .end code" = true := by decide
  rw [codeLines?, text_ofListing, pieces_join (newline_not_mem_classLines hnames hfeeds _),
    classLines, List.append_assoc, List.cons_append, List.append_assoc, List.cons_append]
  exact block?_append (opensCode_linesBefore options _) (opensCode_openingLine _) hbody hclosing

end ClassFile

namespace Listing

/-- The class around a listing carries its instructions: what stands between the first line that
opens the code and the next one that closes it are as many lines as the listing has instructions,
and they are read as these, in order. -/
theorem classText_code (hread : read keepGoing source = .ok instructions)
    (hopen : ∀ i ∈ instructions, i.BoundsOpen) (hnames : options.OnOneLine) :
    ∃ text lines, classText options keepGoing source = .ok text ∧ codeLines? text = some lines ∧
      lines.map Instruction.ofLine = instructions.map fun i => .ok (some i) := by
  have hreadable := readable_of_read hread
  refine ⟨(ClassFile.ofListing options instructions).text, instructions.map codeLine, ?_, ?_, ?_⟩
  · rw [classText, hread]
    rfl
  · exact ClassFile.codeLines?_ofListing hnames (fun i hi => (hreadable i hi).2) fun i hi =>
      closesCode_codeLine (hreadable i hi).1 (hopen i hi)
  · rw [List.map_map]
    exact List.map_congr_left fun i hi => ofLine_codeLine (hreadable i hi).1 (hopen i hi)

/-- Names, a label and a jump that hold the words of both delimiters, and a quote that is left
open before a carriage return. -/
theorem classText_code_delimiters :
    let options : WrapOptions := ⟨".code a/B", some ".end code", ".code b", 2⟩
    let instructions : List Instruction := [.label "\".end code\"", .goto "\".code x\r"]
    read false "\".end code\":\n  goto \".code x\r" = .ok instructions ∧
      (∀ i ∈ instructions, i.BoundsOpen) ∧ options.OnOneLine ∧
      ∃ text lines, classText options false "\".end code\":\n  goto \".code x\r" = .ok text ∧
        codeLines? text = some lines ∧
          lines.map Instruction.ofLine = instructions.map fun i => .ok (some i) := by
  intro options instructions
  have hread : read false "\".end code\":\n  goto \".code x\r" = .ok instructions :=
    Descriptor.toOption_eq_some.mp (by decide +kernel)
  have hopen : ∀ i ∈ instructions, i.BoundsOpen := by
    simp [instructions, Instruction.BoundsOpen]
  have hnames : options.OnOneLine := ⟨by decide, by decide, by decide⟩
  exact ⟨hread, hopen, hnames, classText_code hread hopen hnames⟩

end Listing

end ClassText
