import ClassText.ClassFile.Text
import ClassText.Listing.Basic

/-!
# Listings as classes

A listing can be wrapped into a class that has one static method, whose body the listing
is. The class is written as text.
-/

namespace ClassText

/-- How a listing is wrapped: the names of the class, of its superclass if it has one, and of
the method, and the size of the method's stack. -/
structure WrapOptions where
  className : String
  superclass : Option String
  methodName : String
  stack : UInt16
deriving DecidableEq

namespace WrapOptions

def standard : WrapOptions :=
  ⟨"Main", some "java/lang/Object", "main", 16⟩

end WrapOptions

/-- The name of the file that a class comes from: that of its outermost class. -/
def sourceFileName (className : String) : String :=
  let simpleName := (className.toList.splitOn '/').getLast?.getD []
  String.ofList (simpleName.takeWhile (· != '$')) ++ ".java"

namespace ClassFile

def ofListing (options : WrapOptions) (instructions : List Instruction) : ClassFile :=
  let main : Method :=
    { modifiers := [.public, .static]
      signature := .mk [] [] .void
      name := options.methodName
      attributes := [.code (.ofInstructions options.stack instructions)] }
  let c : ClassFile :=
    { named ⟨options.className⟩ with
      modifiers := [.public, .super]
      superclass := options.superclass.map ClassName.mk
      methods := [main]
      attributes := [.sourceFile (sourceFileName options.className)] }
  c.fillPool

end ClassFile

/-- The text of the class around a listing, or the lines of it that are rejected. -/
def Listing.classText (options : WrapOptions) (keepGoing : Bool) (source : String) :
    Except (List ListingError) String :=
  (Listing.read keepGoing source).map fun instructions =>
    (ClassFile.ofListing options instructions).text

end ClassText
