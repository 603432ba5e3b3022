import Missive.Message.Shown

/-!
# Steps

A session is told what to do in steps. Each names the registers, classes, extensions and tables it
works on, and gives values as expressions. The answer to a step says what came of it.
-/

namespace Missive.Session

/-- A value, as a step writes it down. -/
inductive Expr where
  | scalar (s : Scalar)
  | list (items : List Expr)
  | map (entries : List (Expr × Expr))
  /-- What a register holds: the object itself, not a copy. -/
  | register (name : String)
  /-- A new message with some fields set. -/
  | new (type : String) (fields : List (String × Expr))
  /-- A new case of a oneof. -/
  | case (type oneof : String) (number : Int) (value : Expr)

instance : Inhabited Expr := ⟨.scalar .none⟩

/-- What an extension is declared with. -/
structure ExtensionDecl where
  number : Int
  fieldName : String
  extended : String
  type : FieldType
  repeated : Bool
  packed : Bool
  messageType : Option String

/-- One thing to do. A target is the register that the result is bound to. -/
inductive Step where
  | new (target type : String) (fields : List (String × Expr))
  | parse (target type : String) (data : Bytes) (table : Option String) (allowIncomplete : Bool)
  | merge (register : String) (data : Bytes) (table : Option String)
  | serialize (register : String) (allowIncomplete : Bool)
  | bind (target : String) (value : Expr)
  | copy (target register : String)
  | deepCopy (target register : String)
  | drop (register : String)
  | state (register : String)
  | dump
  | get (register field : String)
  | getInto (target register field : String)
  | set (register field : String) (value : Expr)
  | has (register field : String)
  | clear (register field : String)
  | mutable (target register field : String)
  | append (register : String) (value : Expr)
  | setItem (register : String) (key value : Expr)
  | deleteItem (register : String) (key : Expr)
  | item (target register : String) (key : Expr)
  | equal (left right : String)
  | sameStorage (left right : String)
  | isComplete (register : String)
  | literal (register : String)
  | trace (register : String)
  | unknown (register : String)
  | appendUnknown (register : String) (data : Bytes)
  | clearUnknown (register : String)
  | hash (register : String)
  | describe (type : String)
  | newCase (target type oneof : String) (number : Int) (value : Expr)
  | decodeCase (target type oneof : String) (number : Int) (data : Bytes)
  | writeCase (register : String) (start stop : Option Int)
  | declareExtension (name : String) (extension : ExtensionDecl)
  | newTable (table : String) (extensions : List String)
  | register (table extension : String)
  | lookup (table type : String) (number : Int)
  | getExtension (register extension : String)
  | getExtensionInto (target register extension : String)
  | hasExtension (register extension : String)
  | setExtension (register extension : String) (value : Expr)
  | clearExtension (register extension : String)
  | countExtensions (register : String)
  | equalExtensions (register : String) (value : Expr)
  | pack (register : String) (value : Expr) (host : String)
  | unpack (target register type : String) (table : Option String)
  | holds (register type : String)

/-- A value; if it is a message with a shared storage, also the number of the owners of the storage,
and whether a reference into it was given out. -/
structure State where
  value : Shown
  owners : Option Shown := none
  escaped : Option Shown := none

/-- What is known of a message class. -/
structure ClassFacts where
  className : String
  fullName : String
  proto3 : Bool
  extensible : Bool
  ranges : List (Int × Int)
  fields : List String
  oneofs : List String
  indirected : Bool
  checks : Bool
  moduleName : String

/-- What came of a step. -/
inductive Answer where
  | nothing
  | value (v : Shown)
  | state (s : State)
  | states (registers : List (String × State))
  | data (bytes : Bytes)
  | text (s : String)
  | flag (b : Bool)
  /-- Are two values equal, and do they differ? -/
  | comparison (equal differ : Bool)
  /-- Do two messages share a storage? Only those that have one can tell. -/
  | sharing (same : Option Bool)
  | events (walk : List Event)
  | facts (c : ClassFacts)
  /-- The names of the extensions of a table. -/
  | table (names : List String)
  /-- The name of an extension that was looked up. -/
  | found (name : Option String)
  /-- How many extensions are set. -/
  | count (extensions : Nat)

end Missive.Session
