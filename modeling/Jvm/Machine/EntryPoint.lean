import Jvm.ClassFile.Resolution
import Jvm.Text.Quoted

/-!
The entry point of a class: the first member named main, whose first attribute must be its Code.
-/

set_option autoImplicit false

namespace Jvm

def entryName : Bytes := utf8 "main"

inductive EntryError where
  | notFound
  | noAttributes
  /-- the first attribute has another name, or none -/
  | noCode (first : Bytes)
  deriving DecidableEq

namespace EntryError

def cause : EntryError -> Cause
  | notFound => .entryNotFound
  | noAttributes => .entryNoAttributes
  | noCode _ => .entryNoCode

def message (e : EntryError) : Bytes :=
  Quoted.quote entryName
    ++ (match e with
      | noCode first => utf8 " has " ++ Quoted.quote first ++ utf8 " first"
      | _ => [])
    ++ utf8 ": " ++ e.cause.text

end EntryError

namespace ClassFile

def entryMember? (c : ClassFile) : Option Member :=
  c.members.find? fun m => c.name? m.name = some entryName

def entryPoint (c : ClassFile) : Except EntryError Bytes :=
  match c.entryMember? with
  | none => .error .notFound
  | some m =>
    match m.attributeList with
    | [] => .error .noAttributes
    | a :: _ =>
      if c.name? a.name = some (utf8 "Code") then .ok a.bytes
      else .error (.noCode ((c.name? a.name).getD []))

end ClassFile

end Jvm
