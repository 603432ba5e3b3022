import Missive.Wire.Written

/-!
# Items

A walk over a message meets a list of items: its present fields in ascending order, with the marks
of extension ranges between them, and its unknown fields at the end. The same items are written to
the wire and shown as a trace. A walk that fails ends with the fault.
-/

namespace Missive

/-- What a walk over a message meets. -/
inductive Item where
  | scalar (number : Int) (type : FieldType) (value : Value)
  | repeated (number : Int) (type : FieldType) (packed : Bool) (values : List Value)
  | message (number : Int) (content : List Item)
  | group (number : Int) (content : List Item)
  /-- A map with the contents of its values, for the case that they are messages. -/
  | map (number : Int) (key value : FieldType) (entries : List (Key × Value)) (contents : List (List Item))
  | extensions (start stop : Int)
  | unknown (data : Bytes)
  /-- Something that can be walked over, but not written. -/
  | unwritable (f : Fault)
  | fault (f : Fault)

namespace Item

/-- Writes the entries of a map, given what is written for the messages among its values. -/
def writeEntries (number : Int) (key value : FieldType) :
    List (Key × Value) → List Written → Written
  | (k, v) :: entries, content :: contents =>
    let written :=
      if value = .message then Written.delimited 2 content else Written.scalar 2 value v
    Written.entry number key k written ++ writeEntries number key value entries contents
  | _, _ => .nil

mutual

def write : Item → Written
  | scalar number type value => Written.scalar number type value
  | repeated number type packed values => Written.repeated number type packed values
  | message number content => Written.delimited number (writeAll content)
  | group number content => Written.group number (writeAll content)
  | map number key value entries contents =>
    writeEntries number key value entries (writeEach contents)
  | extensions _ _ => .nil
  | unknown data => ⟨data, none⟩
  | unwritable f => .failed f
  | fault f => .failed f

def writeAll : List Item → Written
  | [] => .nil
  | item :: rest => write item ++ writeAll rest

def writeEach : List (List Item) → List Written
  | [] => []
  | items :: rest => writeAll items :: writeEach rest

end

mutual

/-- The fault that a walk over an item meets. The messages of a map are not walked over. -/
def fault? : Item → Option Fault
  | message _ content => firstFault content
  | group _ content => firstFault content
  | fault f => some f
  | _ => none

/-- The first fault that a walk over items meets. -/
def firstFault : List Item → Option Fault
  | [] => none
  | item :: rest =>
    match fault? item with
    | some f => some f
    | none => firstFault rest

end

end Item

end Missive
