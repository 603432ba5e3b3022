import Missive.Message.Decode
import Missive.Proofs.Plan.Dispatch

/-!
# Dispatch is exact

A schema says where a field number belongs: to the declared field that has it and is in no oneof, else to
the oneof that has a member of it, else to the extensions if it lies in a range, and else nowhere.  That
is its `destination`.  Nothing of the decoder enters into it, neither the order of its cases nor the
ranges that three or more consecutive members are compressed to.

**Cases.**  A case of the dispatcher matches the numbers of one destination and no others.

**Code.**  The decoder that is written out has one of three forms: it keeps every field as an unknown one,
asks for the extension ranges only, or tries cases in a row.  `Dispatcher` is that code as a tree with a
meaning, and whatever form it has, what it goes on to for a number is what the destination asks for.

**Decoding.**  Decoding a field does the same, for every message and cursor.
-/

namespace Missive.Schema

open List

/-- Where a field number belongs. -/
inductive Destination where
  | field (f : Field)
  | oneof (o : Oneof)
  | extension
  | unknown

/-- Where a message has a field number belong. -/
def Message.destination (m : Message) (number : Int) : Destination :=
  match m.fields.find? fun f => f.number == number && (m.oneofOf f).isNone with
  | some f => .field f
  | none =>
    match m.oneofs.find? fun o => o.members.any (·.number == number) with
    | some o => .oneof o
    | none => if m.ranges.contains number then .extension else .unknown

end Missive.Schema

namespace Missive.Plan

open Schema List

section destination

variable {m : Message} {f : Field} {o : Oneof} {number : Int}

lemma exists_member_of_find (found : m.oneofs.find? (fun o => o.members.any (·.number == number)) = some o) :
    ∃ f ∈ m.fields, f.number = number ∧ m.oneofOf f = some o := by
  have hit : o.members.any (·.number == number) = true :=
    find?_some (p := fun o : Oneof => o.members.any (·.number == number)) found
  obtain ⟨f, member, same⟩ := any_eq_true.1 hit
  obtain ⟨inside, of⟩ := (mem_members_iff (mem_of_find?_eq_some found)).1 member
  exact ⟨f, inside, by simpa using same, of⟩

lemma destination_eq_field (h : m.destination number = .field f) :
    f ∈ m.fields ∧ f.number = number ∧ m.oneofOf f = none := by
  unfold Message.destination at h
  split at h
  · rename_i g found
    cases h
    have hit := find?_some found
    simp only [Bool.and_eq_true, beq_iff_eq, Option.isNone_iff_eq_none] at hit
    exact ⟨mem_of_find?_eq_some found, hit⟩
  · split at h
    · cases h
    · split at h <;> cases h

lemma destination_eq_oneof (h : m.destination number = .oneof o) :
    ∃ f ∈ m.fields, f.number = number ∧ m.oneofOf f = some o := by
  unfold Message.destination at h
  split at h
  · cases h
  split at h
  · rename_i o' found
    cases h
    exact exists_member_of_find found
  · split at h <;> cases h

/-- A field that is in no oneof is where its number belongs. -/
lemma destination_field (resolved : m.Resolved) (inside : f ∈ m.fields) (plain : m.oneofOf f = none) :
    m.destination f.number = .field f := by
  unfold Message.destination
  cases found : m.fields.find? fun g => g.number == f.number && (m.oneofOf g).isNone with
  | none => exact absurd (find?_eq_none.1 found f inside) (by simp [plain])
  | some =>
    have hit := find?_some found
    simp only [Bool.and_eq_true, beq_iff_eq] at hit
    obtain rfl := inj_on_of_nodup_map resolved.distinct (mem_of_find?_eq_some found) inside hit.1
    rfl

/-- The number of a member belongs to its oneof. -/
lemma destination_member (resolved : m.Resolved) (inside : f ∈ m.fields) (of : m.oneofOf f = some o) :
    m.destination f.number = .oneof o := by
  have only : ∀ g ∈ m.fields, g.number = f.number → g = f := fun g declared same =>
    inj_on_of_nodup_map resolved.distinct declared inside same
  have declared := (oneofOf_some of).1
  have plain : m.fields.find? (fun g => g.number == f.number && (m.oneofOf g).isNone) = none := by
    refine find?_eq_none.2 fun g other => ?_
    simp only [Bool.and_eq_true, beq_iff_eq, not_and]
    intro same
    simp [only g other same, of]
  unfold Message.destination
  rw [plain]
  cases found : m.oneofs.find? fun o => o.members.any (·.number == f.number) with
  | none =>
    have member : o.members.any (·.number == f.number) = true :=
      any_eq_true.2 ⟨f, mem_members inside of, beq_self_eq_true _⟩
    exact absurd member (find?_eq_none.1 found o declared)
  | some =>
    obtain ⟨g, declared', same, of'⟩ := exists_member_of_find found
    obtain rfl := only g declared' same
    rw [of] at of'
    rw [Option.some.inj of']

/-- A number of no field belongs to the extensions or nowhere. -/
lemma destination_other (other : ∀ f ∈ m.fields, f.number ≠ number) :
    m.destination number = if m.ranges.contains number then .extension else .unknown := by
  unfold Message.destination
  split
  · rename_i found
    have hit := find?_some found
    simp only [Bool.and_eq_true, beq_iff_eq] at hit
    exact absurd hit.1 (other _ (mem_of_find?_eq_some found))
  split
  · rename_i o found
    obtain ⟨f, inside, same, -⟩ := exists_member_of_find found
    exact absurd same (other f inside)
  · rfl

/-- Fields share a slot where their numbers belong to the same. -/
lemma destination_eq_iff (resolved : m.Resolved) {g : Field} (inside : g ∈ m.fields) :
    m.destination number = m.destination g.number ↔ ∃ f ∈ m.fields, f.number = number ∧ slotKey m f = slotKey m g := by
  cases of : m.oneofOf g with
  | none =>
    rw [destination_field resolved inside of]
    constructor
    · intro same
      obtain ⟨inside, number, -⟩ := destination_eq_field same
      exact ⟨g, inside, number, rfl⟩
    · rintro ⟨f, declared, rfl, key⟩
      rw [slotKey_field.2 ⟨of, rfl⟩, slotKey_field] at key
      rw [key.2, destination_field resolved inside of]
  | some o =>
    have key : slotKey m g = .oneof o.index := (slotKey_oneof of).2 (oneofOf_some of).2
    rw [destination_member resolved inside of, key]
    constructor
    · intro same
      obtain ⟨f, declared, number, of'⟩ := destination_eq_oneof same
      exact ⟨f, declared, number, (slotKey_oneof of).2 (oneofOf_some of').2⟩
    · rintro ⟨f, declared, rfl, same⟩
      exact destination_member resolved declared (oneofOf_eq of ((slotKey_oneof of).1 same))

end destination

end Missive.Plan

/-! ## Code -/

namespace Missive.Code

open Schema Plan List

/-- What the code of a dispatcher asks of a field number. -/
inductive Guard where
  | among (numbers : List Int)
  | between (first last : Int)
  | within (ranges : Ranges)
  | always

namespace Guard

/-- Does a number meet what is asked of it? -/
def holds : Guard → Int → Bool
  | among numbers, number => numbers.contains number
  | between first last, number => first ≤ number && number ≤ last
  | within ranges, number => ranges.contains number
  | always, _ => true

/-- The guard as a case clause. -/
def clause : Guard → String
  | among numbers => " | ".intercalate (numbers.map toString)
  | between first last => "_ if " ++ toString first ++ " <= field_number <= " ++ toString last
  | within ranges => "_ if " ++ ranges.condition "field_number"
  | always => "_"

def ofPattern (p : Pattern) : Guard := if p.isRange then between p.first p.last else among p.numbers

lemma holds_ofPattern (p : Pattern) (number : Int) : (ofPattern p).holds number = p.contains number := by
  unfold ofPattern Pattern.contains
  split <;> rfl

lemma clause_ofPattern (p : Pattern) : (ofPattern p).clause = p.caseClause "field_number" := by
  unfold ofPattern Pattern.caseClause
  split
  · simp only [clause, String.append_assoc]
    congr 2
  · rfl

end Guard

/-- The code that decodes one field after the other. -/
inductive Dispatcher where
  /-- All fields are treated alike. -/
  | skipping (body : List Code)
  /-- Only the extension ranges are asked for. -/
  | branching (ranges : Ranges) (inside outside : List Code)
  /-- Cases in a row, of which the first one counts whose guard holds. -/
  | matching (cases : List (Guard × List Code))

namespace Dispatcher

/-- What is done with a field of a number. -/
def taken : Dispatcher → Int → List Code
  | skipping body, _ => body
  | branching ranges inside outside, number => if ranges.contains number then inside else outside
  | matching cases, number => ((cases.find? fun case => case.1.holds number).map (·.2)).getD []

/-- The head of a loop in which the number of the field is known. -/
def loop : String := "while (field_number := decoder.next_field_number()) is not None:"

/-- The dispatcher written out, behind the lines that come before its loop. -/
def code (before : List Code) : Dispatcher → List Code
  | skipping body => [block "while decoder.next_field_number() is not None:" body]
  | branching ranges inside outside =>
    before ++ [block loop [block ("if " ++ ranges.condition "field_number" ++ ":") inside, block "else:" outside]]
  | matching cases =>
    before ++ [block loop [block "match field_number:"
      (cases.map fun case => block ("case " ++ case.1.clause ++ ":") case.2)]]

/-- What a class does with a field that belongs to a slot. -/
def slotBody (c : ClassPlan) (slot : Nat) : List Code :=
  (c.slots[slot]?.map (ClassCode.decodeSlot (localOwner c.layout "self"))).getD []

def ofClass (c : ClassPlan) : Dispatcher :=
  if !c.writesFields then skipping [ClassCode.skipUnknown]
  else if c.fieldNames.isEmpty then branching c.ranges [ClassCode.decodeExtension c] [ClassCode.skipUnknown]
  else
    matching (c.cases.map (fun case => (Guard.ofPattern case.1, slotBody c case.2))
      ++ (if c.isExtensible then [(Guard.within c.ranges, [ClassCode.decodeExtension c])] else [])
      ++ [(Guard.always, [ClassCode.skipUnknown])])

/-- **The decoder of a class is its dispatcher, written out.** -/
lemma decoder_eq (c : ClassPlan) :
    ClassCode.decoder c = block "def decode_message(self, decoder) -> None:"
      ((ofClass c).code (if c.isIndirected then [line "storage = self._unique_storage()"] else [])) := by
  have cases : (c.cases.map fun case => (Guard.ofPattern case.1, slotBody c case.2)).map
        (fun case => block ("case " ++ case.1.clause ++ ":") case.2)
      = c.cases.map fun case => block ("case " ++ case.1.caseClause "field_number" ++ ":") (slotBody c case.2) := by
    rw [map_map]
    exact map_congr_left fun case _ => by rw [Function.comp_apply, Guard.clause_ofPattern]
  unfold ClassCode.decoder ofClass
  by_cases writes : c.writesFields = true
  · by_cases fields : c.fieldNames.isEmpty = true
    · simp [writes, fields, code, loop]
    · simp only [writes, fields, code, map_append, cases, Bool.not_true, Bool.false_eq_true, if_false]
      congr 2
      have ranged : "case " ++ ("_ if " ++ c.ranges.condition "field_number")
          = "case _ if " ++ c.ranges.condition "field_number" := by
        rw [← String.append_assoc]
        rfl
      cases extensible : c.isExtensible <;>
        simp [ClassCode.decodeCases, extensible, Guard.clause, slotBody, loop, ranged]
  · simp [writes, code]

/-- **Whatever its form, the dispatcher goes on to what the route of a number asks for.** -/
lemma taken_ofClass (c : ClassPlan) (empty : c.fieldNames.isEmpty = true → c.cases = []) (number : Int) :
    (ofClass c).taken number = match c.route number with
      | .slot i => slotBody c i
      | .extension => [ClassCode.decodeExtension c]
      | .unknown => [ClassCode.skipUnknown] := by
  have closed : c.isExtensible = false → c.ranges.contains number = false := by
    intro none
    have none : c.ranges.list = [] := by simpa [ClassPlan.isExtensible, Ranges.isEmpty] using none
    simp [Ranges.contains, none]
  unfold ofClass ClassPlan.route
  by_cases fields : c.fieldNames.isEmpty = true
  · rw [empty fields]
    cases extensible : c.isExtensible with
    | false => simp [ClassPlan.writesFields, fields, extensible, taken, closed extensible]
    | true =>
      cases ranged : c.ranges.contains number <;>
        simp [ClassPlan.writesFields, fields, extensible, taken, ranged]
  · have writes : c.writesFields = true := by simp [ClassPlan.writesFields, fields]
    simp only [writes, fields, taken, Bool.not_true, Bool.false_eq_true, if_false, find?_append,
      find?_map, Function.comp_def, Guard.holds_ofPattern]
    cases c.cases.find? fun case => case.1.contains number with
    | some => simp
    | none =>
      cases extensible : c.isExtensible with
      | false => simp [Guard.holds, closed extensible]
      | true => cases ranged : c.ranges.contains number <;> simp [Guard.holds, ranged]

end Dispatcher

end Missive.Code

/-! ## Decoding -/

namespace Missive

open Schema Plan Code List

/-- What the class of a message does with a field of a number that belongs somewhere: the code that it goes
on to, and what decoding the field comes to. -/
def Handles (a : Arena) (m : Message) (c : ClassPlan) (number : Nat) : Destination → Prop
  | .field f => ∃ i plan, c.slots[i]? = some (.field plan) ∧ plan.number = (number : Int) ∧ KindOf a m f plan.kind
      ∧ (Dispatcher.ofClass c).taken number = ClassCode.decodeSlot (localOwner c.layout "self") (.field plan)
      ∧ ∀ p table decode assigned, decodeNumber p table decode c assigned number = do
          decodeField p decode (c.decoderLocals assigned.current assigned.value) c plan i
          return assigned
  | .oneof o => ∃ i plan, c.slots[i]? = some (.oneof plan) ∧ OneofFor a o plan
      ∧ (∃ member, plan.member? number = some member)
      ∧ (Dispatcher.ofClass c).taken number = ClassCode.decodeSlot (localOwner c.layout "self") (.oneof plan)
      ∧ ∀ p table decode assigned, decodeNumber p table decode c assigned number = do
          let current ← Decoding.current p c i
          decodeOneof p decode c plan i number
          return { current := current.caseLocal, value := .unhashable }
  | .extension => (Dispatcher.ofClass c).taken number = [ClassCode.decodeExtension c]
      ∧ ∀ p table decode assigned, decodeNumber p table decode c assigned number = do
          decodeRanged p table decode (c.own.meaning (c.decoderLocals assigned.current assigned.value)) number
          return assigned
  | .unknown => (Dispatcher.ofClass c).taken number = [ClassCode.skipUnknown]
      ∧ ∀ p table decode assigned, decodeNumber p table decode c assigned number = do
          keepUnknown
          return assigned

section handles

variable {a : Arena} {m : Message} {c : ClassPlan}

/-- A class without fields has no cases. -/
lemma cases_eq_nil (planned : Planned a m c) (empty : c.fieldNames.isEmpty = true) : c.cases = [] := by
  have none : m.fields = [] := by
    rw [← length_eq_zero_iff, ← planned.named, length_eq_zero_iff]
    simpa using empty
  rw [planned.cases, dispatchCases_eq]
  simp [Message.sorted, sortFields, sortBy, none]

section

variable (planned : Planned a m c) (resolved : m.Resolved)

include planned resolved

/-- **Fields.**  What is declared is handled by its slot. -/
lemma handles_declared {oneofs : List (Nat × OneofPlan)} {f : Field} {d : Declared} (inside : f ∈ m.fields)
    (declared : d ∈ c.declared) (presents : Presents a m oneofs f d) {number : Nat} (same : f.number = number) :
    Handles a m c number (m.destination number) := by
  have route : c.route number = .slot d.slot := by
    rw [← same, ← presents.number_eq]
    exact planned.route_declared resolved declared
  have slot := planned.slot_of_declared resolved declared
  have taken : (Dispatcher.ofClass c).taken number = ClassCode.decodeSlot (localOwner c.layout "self") d.content := by
    rw [Dispatcher.taken_ofClass c (cases_eq_nil planned), route]
    simp [Dispatcher.slotBody, slot]
  cases presents with
  | field plain numbered kind =>
    rw [← same, destination_field resolved inside plain]
    refine ⟨_, _, slot, numbered.trans same, kind, taken, fun p table decode assigned => ?_⟩
    simp only [decodeNumber, route, slot, Declared.content]
  | member of known oneof found =>
    rw [← same, destination_member resolved inside of]
    refine ⟨_, _, slot, oneof, ⟨_, same ▸ found⟩, taken, fun p table decode assigned => ?_⟩
    simp only [decodeNumber, route, slot, Declared.content]

lemma handles_other {number : Nat} (other : ∀ f ∈ m.fields, f.number ≠ number) :
    Handles a m c number (m.destination number) := by
  have route := planned.route_other resolved other
  have taken := Dispatcher.taken_ofClass c (cases_eq_nil planned) number
  rw [destination_other other, ← planned.ranges]
  by_cases ranged : c.ranges.contains number = true
  · rw [if_pos ranged] at route ⊢
    rw [route] at taken
    exact ⟨taken, fun p table decode assigned => by simp only [decodeNumber, route]⟩
  · rw [if_neg ranged] at route ⊢
    rw [route] at taken
    exact ⟨taken, fun p table decode assigned => by simp only [decodeNumber, route]⟩

/-- **Every number is handled as its destination asks.** -/
lemma handles_destination (number : Nat) :
    Handles a m c number (m.destination number) := by
  by_cases some : ∃ f ∈ m.fields, f.number = number
  · obtain ⟨f, inside, same⟩ := some
    obtain ⟨oneofs, d, declared, presents⟩ := planned.exists_presented inside
    exact handles_declared planned resolved inside declared presents same
  · simp only [not_exists, not_and] at some
    exact handles_other planned resolved some

end

end handles

/-- **Dispatch is exact.**  In the class of a message of an accepted schema, the decoder that is written
out is a dispatcher, and for every number the dispatcher and the decoding of a field do what the destination
of the number asks for.  Every case matches the numbers of one destination, and no others. -/
theorem dispatch_exact {files : List FileDecl} {k : Compilation} {file : FileDecl} {module : ModulePlan}
    (built : Arena.build files = .ok k.arena) (given : k.names = Naming.names k.arena)
    (planned : (k.plan file).1 = .ok module) {c : ClassPlan} (inside : c ∈ flattenList module.classes) :
    ∃ m, k.arena.message? c.id = some m ∧ ClassCode.decoder c = block "def decode_message(self, decoder) -> None:"
          ((Dispatcher.ofClass c).code (if c.isIndirected then [line "storage = self._unique_storage()"] else []))
      ∧ (∀ number : Nat, Handles k.arena m c number (m.destination number))
      ∧ ∀ case ∈ c.cases, ∃ f ∈ m.fields, ∀ number : Int,
          case.1.contains number = true ↔ m.destination number = m.destination f.number := by
  obtain ⟨m, resolved, planned⟩ := Program.planned_of_plan built given planned inside
  refine ⟨m, planned.found, Dispatcher.decoder_eq c, handles_destination planned resolved, ?_⟩
  intro case member
  rw [planned.cases] at member
  obtain ⟨f, declared, -, numbers⟩ := exists_of_case resolved member
  refine ⟨f, declared, fun number => ?_⟩
  rw [numbers, destination_eq_iff resolved declared]

/-- A oneof of consecutive members, the first of which is declared behind a field with a larger number. -/
def interleavedFile : FileDecl :=
  { name := "a.proto"
    messages :=
      [{ name := "M"
         fields := [{ name := "a", number := 5, type := .int32 },
           { name := "b", number := 4, type := .int32, oneof := some 0 },
           { name := "c", number := 2, type := .int32, oneof := some 0 },
           { name := "d", number := 3, type := .message, typeName := ".M", oneof := some 0 }]
         oneofs := ["o"]
         extensionRanges := [(6, 8)] }] }

theorem dispatch_exact_interleaved :
    ∃ a module c m, Arena.build [interleavedFile] = .ok a
      ∧ ((Compilation.start a {}).plan interleavedFile).1 = .ok module ∧ c ∈ flattenList module.classes
      ∧ a.message? c.id = some m
      ∧ c.cases.map (fun case => (case.1.numbers, case.1.isRange)) = [([2, 3, 4], true), ([5], false)]
      ∧ ∀ number : Nat, Handles a m c number (m.destination number) := by
  obtain ⟨a, built⟩ := exists_of_isOk (show (Arena.build [interleavedFile]).isOk = true by decide +kernel)
  have facts : ((Arena.build [interleavedFile]).toOption.bind fun a =>
      ((Compilation.start a {}).plan interleavedFile).1.toOption.map fun module =>
        (flattenList module.classes).head?.map fun c => c.cases.map fun case =>
          (case.1.numbers, case.1.isRange))
      = some (some [([2, 3, 4], true), ([5], false)]) := by
    decide +kernel
  simp only [built, Except.toOption, Option.bind_some] at facts
  cases planned : ((Compilation.start a {}).plan interleavedFile).1 with
  | error => simp [planned] at facts
  | ok module =>
    simp only [planned, Option.map_some, Option.some.injEq, Option.map_eq_some_iff] at facts
    obtain ⟨c, first, cases⟩ := facts
    have inside := mem_of_head? first
    obtain ⟨m, found, -, handles, -⟩ := dispatch_exact (k := Compilation.start a {}) built rfl planned inside
    exact ⟨a, module, c, m, built, planned, inside, found, cases, handles⟩

end Missive
