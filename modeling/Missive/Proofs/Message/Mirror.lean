import Missive.Proofs.Message.Swap

/-!
# Programs that read alike

The fields of a number are taken each for itself, as a member of a oneof, or not at all.  That is the role of
the number; where the fields are kept is another matter.  Two programs mirror each other if every number has
roles in their classes that are alike.

**Reading.**  While one of the programs reads some data, so does the other one, with the same cursors.  What they
hold under each number is related (`Mirrored.step`, `Mirrored.run`).

**Writing.**  What is related is written in the same way (`Mirrored.serialize_eq`).

The main result is `Mirror.parse_iff`.
-/

namespace Missive

open Plan List

variable {p p' : Program} {table table' : Option ExtensionTable} {c c' : ClassPlan}
  {number number' depth levels : Nat} {decode : Decoding Unit} {cur cur' : Cursor} {old v v' : Value}
  {kind : FieldKind} {role' : Role} {t : TypeId} {N : Relation} {m : Content} {bytes : Bytes}

/-! ## Roles of numbers -/

/-- How the fields of a number are taken: each for itself, as a member of a oneof, or not at all. -/
inductive Role where
  | alone (kind : FieldKind)
  | member (slot : Nat) (o : OneofPlan) (member : MemberPlan) (first : Bool)
  | unknown

def Plan.Declared.role : Declared → Role
  | .field _ f => .alone f.kind
  | .member slot o m first => .member slot o m first

/-- The role of a number in a class, given the extensions that are known. -/
def Plan.ClassPlan.roleOf (p : Program) (table : Option ExtensionTable) (c : ClassPlan) (number : Nat) : Role :=
  match c.declared.find? (·.number == (number : Int)) with
  | some d => d.role
  | none =>
    match c.spotOf table number with
    | .extension e => .alone (e.kind p)
    | _ => .unknown

/-- Between two cursors stands a field of a number with a role, which turns what is held into something else. -/
inductive Role.Takes (p : Program) (decode : Decoding Unit) (t : TypeId) (cur cur' : Cursor) :
    Role → Value → Value → Prop
  | alone {kind : FieldKind} {old new : Value} (takes : kind.Takes p decode cur cur' old new) :
      Takes p decode t cur cur' (.alone kind) old new
  | member {slot : Nat} {o : OneofPlan} {m : MemberPlan} {first : Bool} {old new : Value}
      (takes : (Declared.member slot o m first).Takes p decode t cur cur' old new) :
      Takes p decode t cur cur' (.member slot o m first) old new
  | unknown {data field : Bytes} (skipped : Cursor.skipUnknown cur = .ok field cur') :
      Takes p decode t cur cur' .unknown (.bytes data) (.bytes (data ++ field))

/-- Where a class puts the fields of a number, and in which role. -/
inductive Plan.ClassPlan.Puts (p : Program) (table : Option ExtensionTable) (c : ClassPlan) (number : Nat) :
    Spot → Role → Prop
  | field {slot : Nat} {f : FieldPlan} (declared : Declared.field slot f ∈ c.declared) (named : f.number = number) :
      Puts p table c number (.slot slot) (.alone f.kind)
  | member {slot : Nat} {o : OneofPlan} {m : MemberPlan} {first : Bool}
      (declared : Declared.member slot o m first ∈ c.declared) (named : m.number = number) :
      Puts p table c number (.slot slot) (.member slot o m first)
  | extension {e : Extension} (undeclared : ∀ d ∈ c.declared, d.number ≠ number)
      (known : ∃ known ∈ table, known.find? c.id number = some e) :
      Puts p table c number (.extension e) (.alone (e.kind p))
  | unknown (undeclared : ∀ d ∈ c.declared, d.number ≠ number) : Puts p table c number .unknown .unknown

section roles

variable {a : Schema.Arena} {s : Schema.Message} {spot : Spot} {role : Role} (planned : Planned a s c)
  (resolved : s.Resolved)

include planned resolved

lemma roleOf_declared {d : Declared} (declared : d ∈ c.declared) (named : d.number = number) :
    c.roleOf p table number = d.role := by
  unfold ClassPlan.roleOf
  split
  · rename_i d' found
    have same : d'.number = number := by simpa using find?_some found
    rw [planned.declared_ext resolved (mem_of_find?_eq_some found) declared (same.trans named.symm)]
  · rename_i none
    exact absurd named (by simpa using find?_eq_none.1 none d declared)

omit planned resolved in
lemma roleOf_undeclared (undeclared : ∀ d ∈ c.declared, d.number ≠ number) :
    c.roleOf p table number = match c.spotOf table number with
      | .extension e => .alone (e.kind p)
      | _ => .unknown := by
  have none : c.declared.find? (·.number == (number : Int)) = none := by
    rw [find?_eq_none]
    intro d declared
    simpa using undeclared d declared
  rw [ClassPlan.roleOf, none]

/-- **Roles and spots.** -/
lemma puts (number : Nat) : c.Puts p table number (c.spotOf table number) (c.roleOf p table number) := by
  by_cases isDeclared : ∃ d ∈ c.declared, d.number = number
  · obtain ⟨d, declared, named⟩ := isDeclared
    rw [roleOf_declared planned resolved declared named, spotOf_declared planned resolved declared named]
    cases d with
    | field => exact .field declared named
    | member => exact .member declared named
  · have undeclared : ∀ d ∈ c.declared, d.number ≠ number := fun d declared named =>
      isDeclared ⟨d, declared, named⟩
    rw [roleOf_undeclared undeclared, spotOf_undeclared planned resolved undeclared]
    cases c.ranges.contains number with
    | false => exact .unknown undeclared
    | true =>
      cases found : table.bind (·.find? c.id number) with
      | none => exact .unknown undeclared
      | some =>
        obtain ⟨known, isTable, isKnown⟩ := Option.bind_eq_some_iff.1 found
        exact .extension undeclared ⟨known, isTable, isKnown⟩

/-- A field is taken in its spot as its role says. -/
lemma Plan.ClassPlan.Puts.takes_iff {new : Value} (puts : c.Puts p table number spot role) :
    spot.Takes p decode c number cur cur' old new ↔ role.Takes p decode c.id cur cur' old new := by
  cases puts with
  | field declared named =>
    refine (takes_slot_iff planned resolved declared named).trans ⟨?_, ?_⟩
    · rintro ⟨takes⟩
      exact .alone takes
    · rintro ⟨takes⟩
      exact .field takes
  | member declared named =>
    refine (takes_slot_iff planned resolved declared named).trans ⟨.member, ?_⟩
    rintro ⟨⟩
    assumption
  | extension =>
    constructor
    · rintro ⟨takes⟩
      exact .alone ‹_›
    · rintro ⟨takes⟩
      exact .extension takes
  | unknown => constructor <;> rintro ⟨⟩ <;> exact .unknown ‹_›

/-- A number that is alone has its spot for itself. -/
lemma Plan.ClassPlan.Puts.eq_of_alone (here : c.Puts p table number spot (.alone kind))
    (there : c.Puts p table number' spot role) : number = number' := by
  cases here with
  | field declared named =>
    cases there with
    | field declared' named' =>
      have equal := planned.declared_of_slot resolved declared declared' rfl
      rw [← Declared.field.inj equal |>.2] at named
      exact_mod_cast named.symm.trans named'
    | member declared' => cases planned.declared_of_slot resolved declared declared' rfl
  | extension _ known =>
    cases there with
    | extension _ known' =>
      obtain ⟨_, -, isKnown⟩ := known
      obtain ⟨_, -, isKnown'⟩ := known'
      exact_mod_cast (ExtensionTable.keys_of_find isKnown).2.symm.trans (ExtensionTable.keys_of_find isKnown').2

/-- A number that shares its spot with a member of a oneof is one, too. -/
lemma Plan.ClassPlan.Puts.exists_member {slot : Nat} {o : OneofPlan} {m : MemberPlan} {first : Bool}
    (here : c.Puts p table number spot (.member slot o m first)) (there : c.Puts p table number' spot role) :
    ∃ o' m' first', role = .member slot o' m' first' := by
  cases here with
  | member declared =>
    cases there with
    | field declared' => cases planned.declared_of_slot resolved declared' declared rfl
    | member => exact ⟨_, _, _, rfl⟩

omit planned resolved in
/-- Nothing is kept where unknown fields are but what has no role. -/
lemma Plan.ClassPlan.Puts.unknown_iff (puts : c.Puts p table number spot role) :
    spot = .unknown ↔ role = .unknown := by
  cases puts <;> simp

end roles

/-! ## Programs that mirror each other -/

namespace Plan

lemma FieldKind.Alike.symm {kind' : FieldKind} (alike : kind.Alike kind') : kind'.Alike kind := by
  cases alike with
  | scalar stored => exact .scalar fun unset => (stored unset).symm
  | repeated => exact .repeated
  | message target => exact .message target.symm
  | repeatedMessage target => exact .repeatedMessage target.symm
  | map target => exact .map target.symm

lemma MemberKind.Alike.symm {kind kind' : MemberKind} (alike : kind.Alike kind') : kind'.Alike kind := by
  cases alike with
  | scalar => exact .scalar
  | message target decoded => exact .message target.symm decoded.symm

end Plan

/-- Two roles are alike if fields with them are coded alike. -/
inductive Role.Alike : Role → Role → Prop
  | alone {kind kind' : FieldKind} (alike : kind.Alike kind') : Alike (.alone kind) (.alone kind')
  | member {slot slot' : Nat} {o o' : OneofPlan} {m m' : MemberPlan} {first first' : Bool}
      (alike : m.kind.Alike m'.kind) : Alike (.member slot o m first) (.member slot' o' m' first')
  | unknown : Alike .unknown .unknown

lemma Role.Alike.symm {role : Role} (alike : role.Alike role') : role'.Alike role := by
  cases alike with
  | alone alike => exact .alone alike.symm
  | member alike => exact .member alike.symm
  | unknown => exact .unknown

/-- Every number has roles in two classes that are alike, and two declared numbers share a slot in both classes or
in none. -/
structure Plan.ClassPlan.Mirrors (p : Program) (table : Option ExtensionTable) (c : ClassPlan) (p' : Program)
    (table' : Option ExtensionTable) (c' : ClassPlan) : Prop where
  roles : ∀ number, (c.roleOf p table number).Alike (c'.roleOf p' table' number)
  shared : ∀ d ∈ c.declared, ∀ e ∈ c.declared, ∀ d' ∈ c'.declared, ∀ e' ∈ c'.declared, d'.number = d.number →
    e'.number = e.number → (d.slot = e.slot ↔ d'.slot = e'.slot)

/-- Two programs with classes for the same messages, each of which mirrors the other one. -/
structure Mirror (p : Program) (table : Option ExtensionTable) (p' : Program) (table' : Option ExtensionTable) :
    Prop where
  ready : p.Ready table
  ready' : p'.Ready table'
  valid : p.Valid
  valid' : p'.Valid
  plans : ∀ t, (p'.plan? t).isSome = (p.plan? t).isSome
  classes : ∀ {t c c'}, p.plan? t = some c → p'.plan? t = some c' → c.Mirrors p table p' table' c'
  spells : ∀ {n t v}, Typed p (.ranged table) (fun _ => False) n t v → ∃ bytes, p.Spells v bytes
  spells' : ∀ {n t v}, Typed p' (.ranged table') (fun _ => False) n t v → ∃ bytes, p'.Spells v bytes

section mirror

lemma Plan.ClassPlan.Mirrors.symm (mirrors : c.Mirrors p table p' table' c') : c'.Mirrors p' table' p table c where
  roles := fun number => (mirrors.roles number).symm
  shared := fun d' there e' other d here e next named named' =>
    (mirrors.shared d here e next d' there e' other named.symm named'.symm).symm

lemma Mirror.symm (mirror : Mirror p table p' table') : Mirror p' table' p table where
  ready := mirror.ready'
  ready' := mirror.ready
  valid := mirror.valid'
  valid' := mirror.valid
  plans := fun t => (mirror.plans t).symm
  classes := fun found' found => (mirror.classes found found').symm
  spells := mirror.spells'
  spells' := mirror.spells

end mirror

/-! ## What is held -/

/-- What two messages hold under a number.  In a oneof it does not matter which of its members asks. -/
inductive Role.Relates (N : Relation) (depth : Nat) (t : TypeId) (c c' : ClassPlan) (number : Nat) :
    Role → Role → Value → Value → Prop
  | alone {kind kind' : FieldKind} {v v' : Value} (related : kind.Relates N depth number v v') :
      Relates N depth t c c' number (.alone kind) (.alone kind') v v'
  | unset {slot slot' : Nat} {o o' : OneofPlan} {m m' : MemberPlan} {first first' : Bool} :
      Relates N depth t c c' number (.member slot o m first) (.member slot' o' m' first') .none .none
  | set {slot slot' : Nat} {o o' : OneofPlan} {m m' : MemberPlan} {first first' : Bool} {e e' : OneofPlan}
      {x x' : MemberPlan} {one one' : Bool} {v v' : Value}
      (declared : Declared.member slot e x one ∈ c.declared)
      (declared' : Declared.member slot' e' x' one' ∈ c'.declared) (named : x'.number = x.number)
      (alike : x.kind.Alike x'.kind) (related : x.kind.Relates N depth x.number.toNat v v') :
      Relates N depth t c c' number (.member slot o m first) (.member slot' o' m' first')
        (.case { owner := t, slot, number := .int x.number } v [])
        (.case { owner := t, slot := slot', number := .int x.number } v' [])
  | unknown {data : Bytes} : Relates N depth t c c' number .unknown .unknown (.bytes data) (.bytes data)

/-- The classes of the messages that are taken in a role are there. -/
def Role.Leads (p : Program) : Role → Prop
  | .alone kind => ∃ names, kind.Leads p names
  | .member _ _ m _ => ∃ names, m.kind.Leads p names
  | .unknown => True

lemma leads_roleOf (ready : p.Ready table) (found : p.plan? t = some c) (number : Nat) :
    (c.roleOf p table number).Leads p := by
  obtain ⟨-, s, resolved, planned⟩ := ready.planned found
  have puts : c.Puts p table number _ _ := puts planned resolved number
  have clear := ready.clear.of_plan found
  generalize c.spotOf table number = spot at puts
  generalize c.roleOf p table number = role at puts
  cases puts with
  | field declared => exact ⟨_, clear.declared _ declared⟩
  | member declared => exact ⟨_, clear.declared _ declared⟩
  | unknown => trivial
  | @extension e _ known =>
    obtain ⟨known, isTable, isKnown⟩ := known
    refine ⟨[], ?_⟩
    unfold Extension.kind
    split
    · split <;> trivial
    · rename_i notScalar
      obtain ⟨target, isTarget, isClass⟩ :=
        ready.extensions known isTable e (mem_of_find?_eq_some isKnown) (by simpa using notScalar)
      have leads : (ClassRef.direct (e.messageType.getD p.baseType)).Leads p [] := by
        refine ⟨rfl, by simp [ClassRef.direct], ?_⟩
        rw [Option.mem_def.1 isTarget]
        exact isClass
      split <;> exact leads

section follows

variable {decode' : Decoding Unit} {role : Role} {spot spot' : Spot} {old' : Value}

/-- **Fields in alike roles.**  What one program takes, the other one takes too. -/
lemma Role.Relates.takes (follows : Follows p p' decode decode' N depth) (ready : p.Ready table)
    (found : p.plan? t = some c) (here : c.Puts p table number spot role)
    (there : c'.Puts p' table' number spot' role') (alike : role.Alike role') (leads : role.Leads p)
    (isDepth : cur.depth = depth) (field : cur.field = some number)
    (related : role.Relates N depth t c c' number role' old old') (takes : role.Takes p decode t cur cur' old v) :
    ∃ v', role'.Takes p' decode' t cur cur' old' v' ∧ role.Relates N depth t c c' number role' v v' := by
  cases takes with
  | alone takes =>
    cases alike with
    | alone alike =>
      cases related with
      | alone related =>
        obtain ⟨_, leads⟩ := leads
        obtain ⟨v', takes', related'⟩ := follows.takes_field isDepth field alike leads related takes
        exact ⟨v', .alone takes', .alone related'⟩
  | unknown skipped =>
    cases alike
    cases related
    exact ⟨_, .unknown skipped, .unknown⟩
  | @member slot o y first _ _ takes =>
    cases alike with
    | @member _ slot' _ o' _ y' _ first' alike =>
      obtain ⟨_, leads⟩ := leads
      cases here with
      | member declared named =>
      cases there with
      | member declared' named' =>
      have same : y'.number = y.number := named'.trans named.symm
      have isNumber : y.number.toNat = number := by omega
      cases takes with
      | opens takes =>
        cases related with
        | unset =>
          obtain ⟨x', takes', related'⟩ := follows.takes_member isDepth field alike leads (.inl ⟨rfl, rfl⟩) takes
          refine ⟨_, .member (.opens takes'), ?_⟩
          rw [same]
          exact .set declared declared' same alike (isNumber ▸ related')
      | @again _ _ _ _ origin x _ takes =>
        generalize isOld : Value.case _ x [] = old at related
        cases related with
        | unset => cases isOld
        | @set _ _ _ _ _ _ _ _ e e' z z' one one' w w' declaredSet _ _ _ relatedSet =>
          obtain ⟨isTag, rfl, -⟩ := Value.case.inj isOld
          have isMember : y.number = z.number := by simpa using congrArg CaseTag.number isTag
          obtain ⟨-, s, resolved, planned⟩ := ready.planned found
          obtain ⟨-, -, rfl, -⟩ := Declared.member.inj (planned.declared_ext resolved declared declaredSet isMember)
          obtain ⟨x', takes', related'⟩ := follows.takes_member isDepth field alike leads
            (.inr (isNumber ▸ relatedSet)) takes
          rw [← same]
          refine ⟨_, .member (.again takes'), ?_⟩
          rw [same]
          exact .set declared declared' same alike (isNumber ▸ related')

end follows

/-! ## Messages -/

/-- A message that was read at a depth, with scalars in the range of their types. -/
def Content.Ranged (p : Program) (table : Option ExtensionTable) (depth : Nat) (t : TypeId) (c : ClassPlan)
    (m : Content) : Prop :=
  m.Fits (.ranged table) (inside p (.ranged table) (fun _ => False) (maxDepth + 1 - depth)) t c

/-- What two programs that mirror each other have made of the same data. -/
structure Mirrored (p : Program) (table : Option ExtensionTable) (p' : Program) (table' : Option ExtensionTable)
    (N : Relation) (depth : Nat) (t : TypeId) (c c' : ClassPlan) (m m' : Content) : Prop where
  found : p.plan? t = some c
  found' : p'.plan? t = some c'
  deep : depth ≤ maxDepth + 1
  ranged : m.Ranged p table depth t c
  ranged' : m'.Ranged p' table' depth t c'
  held : ∀ number, (c.roleOf p table number).Relates N depth t c c' number (c'.roleOf p' table' number)
    (m.held p (c.spotOf table number)) (m'.held p' (c'.spotOf table' number))

section held

/-- What is kept in a spot is held there. -/
lemma held_keep_self (ready : p.Ready table) (found : p.plan? t = some c) (ranged : m.Ranged p table depth t c)
    (takes : (c.roleOf p table number).Takes p decode t cur cur' old v) :
    (m.keep (c.spotOf table number) v).held p (c.spotOf table number) = v := by
  obtain ⟨-, s, resolved, planned⟩ := ready.planned found
  have puts : c.Puts p table number _ _ := puts planned resolved number
  generalize c.roleOf p table number = role at puts takes
  generalize c.spotOf table number = spot at puts ⊢
  cases puts with
  | field declared => exact Content.slot_setSlot (ranged.room ready found declared)
  | member declared => exact Content.slot_setSlot (ranged.room ready found declared)
  | extension => simp only [Content.held, Content.keep, Content.extended, extension?_withExtension, Option.getD_some]
  | unknown =>
    cases takes
    rfl

/-- What is kept in a spot changes nothing for numbers with other spots. -/
lemma held_keep_of_ne (differ : c.spotOf table number ≠ c.spotOf table number') :
    (m.keep (c.spotOf table number) v).held p (c.spotOf table number') = m.held p (c.spotOf table number') :=
  held_keep (apart_spotOf differ)

end held

/-- Numbers that share a spot in one class share one in the other, and what they hold is related for all of them or for
none. -/
lemma Mirror.shared (mirror : Mirror p table p' table') (found : p.plan? t = some c)
    (found' : p'.plan? t = some c') (same : c.spotOf table number = c.spotOf table number') :
    c'.spotOf table' number = c'.spotOf table' number'
      ∧ ∀ {N depth v v'}, (c.roleOf p table number).Relates N depth t c c' number (c'.roleOf p' table' number) v v' →
        (c.roleOf p table number').Relates N depth t c c' number' (c'.roleOf p' table' number') v v' := by
  obtain ⟨-, s, resolved, planned⟩ := mirror.ready.planned found
  obtain ⟨-, s', resolved', planned'⟩ := mirror.ready'.planned found'
  by_cases equal : number = number'
  · subst equal
    exact ⟨rfl, id⟩
  have mirrors := mirror.classes found found'
  have alike := mirrors.roles number
  have alike' := mirrors.roles number'
  have here : c.Puts p table number _ _ := puts planned resolved number
  have here' : c.Puts p table number' _ _ := puts planned resolved number'
  have there : c'.Puts p' table' number _ _ := puts planned' resolved' number
  have there' : c'.Puts p' table' number' _ _ := puts planned' resolved' number'
  rw [← same] at here'
  generalize c.spotOf table number = spot at here here'
  generalize c'.spotOf table' number = spot₁ at there ⊢
  generalize c'.spotOf table' number' = spot₂ at there' ⊢
  generalize c.roleOf p table number = role at here alike ⊢
  generalize c.roleOf p table number' = role' at here' alike' ⊢
  generalize c'.roleOf p' table' number = role₁ at there alike ⊢
  generalize c'.roleOf p' table' number' = role₂ at there' alike' ⊢
  cases alike with
  | alone => exact absurd (here.eq_of_alone planned resolved here') equal
  | unknown =>
    obtain rfl := here'.unknown_iff.1 (here.unknown_iff.2 rfl)
    cases alike'
    refine ⟨(there.unknown_iff.2 rfl).trans (there'.unknown_iff.2 rfl).symm, fun related => ?_⟩
    cases related
    exact .unknown
  | member =>
    obtain ⟨_, _, _, rfl⟩ := here.exists_member planned resolved here'
    cases alike'
    cases here with | member declared named =>
    cases here' with | member declared' named' =>
    cases there with | member other isNumber =>
    cases there' with | member other' isNumber' =>
    obtain rfl := (mirrors.shared _ declared _ declared' _ other _ other' (isNumber.trans named.symm)
      (isNumber'.trans named'.symm)).1 rfl
    refine ⟨rfl, fun related => ?_⟩
    cases related with
    | unset => exact .unset
    | set declared declared' named alike related => exact .set declared declared' named alike related

/-! ## Reading -/

/-- Two readers of nested data that mirror each other, the second of which follows the first. -/
structure Chase (p : Program) (table : Option ExtensionTable) (p' : Program) (table' : Option ExtensionTable)
    (decode decode' : Decoding Unit) (N : Relation) (depth : Nat) : Prop
    extends Follows p p' decode decode' N depth where
  mirror : Mirror p table p' table'
  below : DecodesBelow p (.ranged table) (fun _ => False) (maxDepth + 1 - depth) decode
  below' : DecodesBelow p' (.ranged table') (fun _ => False) (maxDepth + 1 - depth) decode'
  nests : Nests decode

section reading

variable {decode' : Decoding Unit} {group : Option Nat} {m₁ m' : Content} {cur₁ : Cursor} {wire : WireType}
  {tag rest : Bytes} {assigned assigned' last : OneofLocals}
  (chase : Chase p table p' table' decode decode' N depth)
  (mirrored : Mirrored p table p' table' N depth t c c' m m')

include chase mirrored

/-- **One field.**  What one program reads, the other one reads too. -/
lemma Mirrored.step (tagged : SpellsTag tag number wire)
    (stands : cur.Stands depth group number wire (tag ++ rest) rest) (opens : wire ≠ .endGroup)
    (run : decodeNumber p table decode c assigned number (m, cur) = .ok last (m₁, cur₁)) :
    ∃ last' m₁', decodeNumber p' table' decode' c' assigned' number (m', cur) = .ok last' (m₁', cur₁)
      ∧ Mirrored p table p' table' N depth t c c' m₁ m₁' := by
  obtain ⟨found, found', deep, ranged, ranged', held⟩ := mirrored
  have mirror := chase.mirror
  have rules := Rules.decoded_ranged mirror.ready mirror.valid
  have rules' := Rules.decoded_ranged mirror.ready' mirror.valid'
  have standing := stands.standing tagged opens
  have levels : cur.depth + (maxDepth + 1 - depth) = maxDepth + 1 := by rw [stands.depth]; omega
  have here : AtField p (.ranged table) (fun _ => False) (maxDepth + 1 - depth) t c number m cur :=
    ⟨found, ranged, standing, levels⟩
  have there : AtField p' (.ranged table') (fun _ => False) (maxDepth + 1 - depth) t c' number m' cur :=
    ⟨found', ranged', standing, levels⟩
  obtain ⟨isId, s, resolved, planned⟩ := mirror.ready.planned found
  obtain ⟨isId', s', resolved', planned'⟩ := mirror.ready'.planned found'
  obtain ⟨v, takes, rfl⟩ := (here.decodeNumber_spot_iff mirror.ready rules assigned).1 ⟨last, run⟩
  rw [(puts planned resolved number).takes_iff planned resolved, isId] at takes
  obtain ⟨v', takes', related⟩ := (held number).takes chase.toFollows mirror.ready found
    (puts planned resolved number) (puts planned' resolved' number) ((mirror.classes found found').roles number)
    (leads_roleOf mirror.ready found number) stands.depth stands.field takes
  obtain ⟨last', run'⟩ := (there.decodeNumber_spot_iff mirror.ready' rules' assigned').2
    ⟨v', ((puts planned' resolved' number).takes_iff planned' resolved').2 (isId'.symm ▸ takes'), rfl⟩
  refine ⟨last', _, run', found, found', deep,
    ((ends_of_ok run).1 (decodeNumber_spec mirror.ready rules here chase.below assigned)).1,
    ((ends_of_ok run').1 (decodeNumber_spec mirror.ready' rules' there chase.below' assigned')).1, fun other => ?_⟩
  by_cases same : c.spotOf table number = c.spotOf table other
  · obtain ⟨same', relates⟩ := mirror.shared found found' same
    rw [← same, ← same', held_keep_self mirror.ready found ranged takes,
      held_keep_self mirror.ready' found' ranged' takes']
    exact relates related
  · have same' : c'.spotOf table' number ≠ c'.spotOf table' other := fun equal =>
      same (mirror.symm.shared found' found equal).1
    rw [held_keep_of_ne same, held_keep_of_ne same']
    exact held other

/-- **All fields.** -/
lemma Mirrored.run (before : cur.Before depth group bytes) {turns : Nat} (enough : bytes.length < turns)
    (run : decodeFields p table decode c turns assigned (m, cur) = .ok () (m₁, cur₁)) :
    ∃ m₁', decodeFields p' table' decode' c' turns assigned' (m', cur) = .ok () (m₁', cur₁)
      ∧ Mirrored p table p' table' N depth t c c' m₁ m₁' :=
  decodeFields_follows chase.nests (fun mirrored => mirrored.step chase) before enough run _ _ mirrored

omit chase in
/-- That data was merged into messages does not matter. -/
lemma Mirrored.merged : Mirrored p table p' table' N depth t c c' m.merged m'.merged where
  __ := mirrored
  ranged := Content.Fits.merged mirrored.ranged
  ranged' := Content.Fits.merged mirrored.ranged'
  held := fun number => by
    have related := mirrored.held number
    generalize c.spotOf table number = spot at related ⊢
    generalize c'.spotOf table' number = spot' at related ⊢
    cases spot <;> cases spot' <;> exact related

/-- **Messages.** -/
lemma Mirrored.decodeInto (before : cur.Before depth group bytes)
    (run : decodeInto p table decode (m, cur) = .ok () (m₁, cur₁)) :
    ∃ m₁', decodeInto p' table' decode' (m', cur) = .ok () (m₁', cur₁)
      ∧ Mirrored p table p' table' N depth t c c' m₁ m₁' := by
  rw [Content.Fits.decodeInto_eq_ok_iff mirrored.ranged chase.mirror.ready mirrored.found] at run
  obtain ⟨m₁', run', mirrored'⟩ := mirrored.merged.run chase before (by rw [before.rest]; omega) run
  refine ⟨m₁', ?_, mirrored'⟩
  exact (Content.Fits.decodeInto_eq_ok_iff mirrored.ranged' chase.mirror.ready' mirrored.found').2 run'

end reading

/-! ## New messages -/

/-- What a number holds in a new message. -/
def Role.fresh : Role → Value
  | .alone kind => kind.initial
  | .member _ _ _ _ => .none
  | .unknown => .bytes []

/-- In a new message, every number holds what its role says. -/
lemma held_fresh (ready : p.Ready table) (found : p.plan? t = some c) (made : Content.fresh p t = .ok m)
    (number : Nat) :
    m.held p (c.spotOf table number) = (c.roleOf p table number).fresh := by
  obtain ⟨-, s, resolved, planned⟩ := ready.planned found
  obtain rfl := Except.ok.inj ((fresh_eq ready found).symm.trans made)
  have puts : c.Puts p table number _ _ := puts planned resolved number
  generalize c.roleOf p table number = role at puts ⊢
  generalize c.spotOf table number = spot at puts ⊢
  cases puts with
  | field declared => exact freshSlot_field ready found declared
  | member declared => exact freshSlot_member ready found declared
  | extension => rfl
  | unknown => rfl

/-- **New messages** are mirrored. -/
lemma mirrored_fresh (mirror : Mirror p table p' table') (N : Relation) (deep : depth ≤ maxDepth + 1)
    (found : p.plan? t = some c) :
    ∃ c' s s', Content.fresh p t = .ok s ∧ Content.fresh p' t = .ok s'
      ∧ Mirrored p table p' table' N depth t c c' s s' := by
  have isClass : (p'.plan? t).isSome = true := by rw [mirror.plans, found]; rfl
  obtain ⟨c', found'⟩ := Option.isSome_iff_exists.1 isClass
  obtain ⟨s, made, fits⟩ := fresh_fits mirror.ready (Rules.decoded_ranged mirror.ready mirror.valid) found
    (inside p (.ranged table) (fun _ => False) (maxDepth + 1 - depth))
  obtain ⟨s', made', fits'⟩ := fresh_fits mirror.ready' (Rules.decoded_ranged mirror.ready' mirror.valid') found'
    (inside p' (.ranged table') (fun _ => False) (maxDepth + 1 - depth))
  refine ⟨c', s, s', made, made', found, found', deep, fits, fits', fun number => ?_⟩
  rw [held_fresh mirror.ready found made, held_fresh mirror.ready' found' made']
  have alike := (mirror.classes found found').roles number
  generalize c.roleOf p table number = role at alike ⊢
  generalize c'.roleOf p' table' number = role' at alike ⊢
  cases alike with
  | alone alike => exact .alone (relates_initial alike)
  | member => exact .unset
  | unknown => exact .unknown

/-! ## All levels -/

/-- What two programs that mirror each other have made of the same data, with so many levels of nested data. -/
def Reflected (p : Program) (table : Option ExtensionTable) (p' : Program) (table' : Option ExtensionTable) :
    (levels : Nat) → Relation
  | 0 => fun _ _ _ _ _ => False
  | levels + 1 => fun depth _ t v v' => ∃ m m' c c', v = Content.value m ∧ v' = Content.value m'
    ∧ Mirrored p table p' table' (Reflected p table p' table' levels) depth t c c' m m'

lemma decodesBelow_ranged (ready : p.Ready table) (valid : p.Valid) (enough : maxDepth + 1 ≤ levels + depth) :
    DecodesBelow p (.ranged table) (fun _ => False) (maxDepth + 1 - depth) (decodeMessage p table levels) :=
  fun _ _ less => decodeMessage_decodes ready (Rules.decoded_ranged ready valid) (by omega)

section levels

variable (mirror : Mirror p table p' table')

include mirror

lemma chase_reflected (enough : maxDepth + 1 ≤ levels + depth) :
    Chase p table p' table' (decodeMessage p table levels) (decodeMessage p' table' levels)
      (Reflected p table p' table' levels) depth := by
  have below := decodesBelow_ranged mirror.ready mirror.valid enough
  have below' := decodesBelow_ranged mirror.ready' mirror.valid' enough
  induction levels generalizing depth with
  | zero =>
    refine ⟨⟨fun shallow => ?_, ?_, ?_⟩, mirror, below, below', nests_decodeMessage p table 0⟩
    · omega
    · rintro _ _ _ _ _ ⟨⟩
    · rintro _ _ _ _ _ _ _ _ _ _ ⟨⟩
  | succ levels ih =>
    refine ⟨⟨?_, ?_, ?_⟩, mirror, below, below', nests_decodeMessage p table (levels + 1)⟩
    · intro shallow below group t deeper near isClass
      obtain ⟨c, found⟩ := Option.isSome_iff_exists.1 isClass
      obtain ⟨c', s, s', made, made', mirrored⟩ := mirrored_fresh mirror (Reflected p table p' table' levels)
        (show below ≤ maxDepth + 1 by omega) found
      exact ⟨s, s', made, made', s, s', c, c', rfl, rfl, mirrored⟩
    · rintro below group t v v' ⟨m, m', c, c', rfl, rfl, -⟩
      exact ⟨m, m', rfl, rfl⟩
    · rintro below group t m m' cur bytes m₁ cur₁ deeper ⟨n, n', c, c', same, same', mirrored⟩ before run
      obtain rfl := Content.value_injective same
      obtain rfl := Content.value_injective same'
      have nested : maxDepth + 1 ≤ levels + below := by omega
      have chase := ih nested (decodesBelow_ranged mirror.ready mirror.valid nested)
        (decodesBelow_ranged mirror.ready' mirror.valid' nested)
      obtain ⟨m₁', run', mirrored'⟩ := mirrored.decodeInto chase before run
      exact ⟨m₁', run', m₁, m₁', c, c', rfl, rfl, mirrored'⟩

/-- **Reading.**  Data that one of the programs reads is read by the other one. -/
lemma Mirror.exists_mirrored (found : p.plan? t = some c) {data : Bytes} (parsed : parse p table t data = .ok m) :
    ∃ m' c', parse p' table' t data = .ok m'
      ∧ Mirrored p table p' table' (Reflected p table p' table' (maxDepth + 1)) 0 t c c' m m' := by
  obtain ⟨c', s, s', made, made', mirrored⟩ := mirrored_fresh mirror (Reflected p table p' table' (maxDepth + 1))
    (Nat.zero_le _) found
  obtain ⟨cur, run⟩ := (parse_eq_ok_iff made).1 parsed
  obtain ⟨m', run', mirrored'⟩ := mirrored.decodeInto (chase_reflected mirror (Nat.le_add_right _ _))
    (Cursor.before_ofBytes data) run
  exact ⟨m', c', (parse_eq_ok_iff made').2 ⟨cur, run'⟩, mirrored'⟩

end levels

/-! ## Writing -/

lemma all_encodings {α : Type} {R : α → α → Prop} {encode encode' : α → Except Fault Bytes}
    (same : ∀ {x x'}, R x x' → encode' x' = encode x) {xs xs' : List α} (each : Forall₂ R xs xs') :
    Encoding.all encode' xs' = Encoding.all encode xs := by
  have mapped : xs'.mapM encode' = xs.mapM encode := by
    induction each with
    | nil => rfl
    | cons first _ ih => rw [mapM_cons, mapM_cons, same first, ih]
  rw [Encoding.all, Encoding.all, mapped]

section encodings

variable (written : ∀ ⦃below group t x x'⦄, N below group t x x' → p'.serialize x' = p.serialize x)

include written

lemma message_encoding {below : Nat} {group : Option Nat} {x x' : Value} (related : N below group t x x')
    (isGroup : Bool) (n : Int) : Encoding.message p' isGroup n x' = Encoding.message p isGroup n x := by
  rw [Encoding.message, Encoding.message, written related]

/-- Related values of alike fields are encoded in the same way. -/
lemma Plan.FieldKind.Relates.encoding_eq {kind' : FieldKind} (alike : kind.Alike kind')
    (related : kind.Relates N depth number v v') (present : kind.isPresent v = true) (n : Int) :
    kind'.encoding p' n v' = kind.encoding p n v := by
  cases alike with
  | scalar =>
    obtain rfl : v' = v := related
    rfl
  | repeated =>
    obtain rfl : v' = v := related
    cases v' <;> rfl
  | message =>
    rcases related with ⟨rfl, rfl⟩ | related
    · cases present
    · exact message_encoding written related _ n
  | repeatedMessage =>
    obtain ⟨xs, xs', rfl, rfl, each⟩ := related
    refine all_encodings (fun {x x'} both => ?_) each
    exact message_encoding written both _ n
  | @map key value ref ref' target =>
    obtain ⟨es, es', rfl, rfl, each⟩ := related
    have isSome : ref'.isSome = ref.isSome := by simpa using congrArg Option.isSome target
    have inner : ∀ {e e'}, EntryRelates N depth ref e e' →
        Encoding.keyValue p' key value ref'.isSome e' = Encoding.keyValue p key value ref.isSome e := by
      intro e e' both
      obtain ⟨isKey, isValue⟩ := both
      rw [Encoding.keyValue, Encoding.keyValue, isSome, isKey]
      cases ref with
      | none =>
        obtain isValue : e'.2 = e.2 := isValue
        simp [isValue]
      | some => simp [message_encoding written isValue false 2]
    refine all_encodings (fun both => ?_) each
    rw [Encoding.entry, Encoding.entry, inner both]

lemma Plan.MemberKind.Relates.encoding_eq {kind kind' : MemberKind} (alike : kind.Alike kind')
    (related : kind.Relates N depth number v v') (n : Int) : kind'.encoding p' n v' = kind.encoding p n v := by
  cases alike with
  | scalar =>
    obtain rfl : v' = v := related
    rfl
  | message => exact message_encoding written related _ n

end encodings

/-- What stands under a number with a role is there, and is encoded as some bytes. -/
inductive Role.Shows (p : Program) (number : Int) : Role → Value → Bytes → Prop
  | alone {kind : FieldKind} {v : Value} {bytes : Bytes} (present : kind.isPresent v = true)
      (encoded : kind.encoding p number v = .ok bytes) : Shows p number (.alone kind) v bytes
  | member {slot : Nat} {o : OneofPlan} {m : MemberPlan} {first : Bool} {tag : CaseTag} {v : Value}
      {loose : List (String × Value)} {bytes : Bytes} (active : tag.number = .int number)
      (encoded : m.kind.encoding p number v = .ok bytes) :
      Shows p number (.member slot o m first) (.case tag v loose) bytes

/-- An extension that is encoded as something is there. -/
lemma Extension.isPresent_of_encoding {R : Rules} {content : Value → Prop} {n : Nat} {e : Extension}
    (encodable : R.Encodable) (fits : e.Fits R (inside p R content n) v)
    (encoded : e.encoding p v = .ok bytes) (some : bytes ≠ []) : (e.kind p).isPresent v = true := by
  refine (e.isPresent_kind encodable fits ?_).2
  rintro rfl
  refine some (Except.ok.inj (encoded.symm.trans ?_))
  unfold Extension.Fits at fits
  unfold Extension.encoding
  cases scalar : e.type.isScalar <;> cases many : e.repeated <;>
    simp only [scalar, many, if_true, Bool.false_eq_true, if_false] at fits ⊢
  · obtain ⟨t, -, ⟨k, -, typed⟩, -⟩ := fits
    obtain ⟨-, m, -, impossible, -⟩ := typed_eq p _ _ k ▸ typed
    cases impossible
  · rfl
  · obtain ⟨s, impossible, -⟩ := fits
    cases impossible
  · simp [Encoding.repeated, Encoding.all]
    rfl

lemma isPresent_initial_extension (p : Program) (e : Extension) : (e.kind p).isPresent (e.kind p).initial = false := by
  unfold Extension.kind
  split <;> split <;> rfl

section carries

variable (ready : p.Ready table) (valid : p.Valid) (found : p.plan? t = some c) (ranged : m.Ranged p table depth t c)

include ready found ranged

/-- The extensions that a message has are those that are known under their numbers. -/
lemma spotOf_extension {e : Extension} (set : (e, v) ∈ m.extensions) (named : e.number = number) :
    c.spotOf table number = .extension e ∧ c.roleOf p table number = .alone (e.kind p) := by
  obtain ⟨isId, s, resolved, planned⟩ := ready.planned found
  obtain ⟨-, isRanged, known, -⟩ := ranged.extensions _ set
  obtain ⟨known, isTable, isKnown⟩ := known
  have undeclared : ∀ d ∈ c.declared, d.number ≠ number := fun d declared =>
    planned.number_ne_ranged resolved declared (named ▸ isRanged)
  have spot : c.spotOf table number = .extension e := by
    rw [spotOf_undeclared planned resolved undeclared, ← named, isRanged, isId, Option.mem_def.1 isTable,
      Option.bind_some, isKnown]
    rfl
  exact ⟨spot, by rw [roleOf_undeclared undeclared, spot]⟩

include valid

/-- **What a message carries** is what it shows under its numbers, but for what is encoded as nothing. -/
lemma carries_iff_shows {number : Int} (some : bytes ≠ []) :
    Carries p c m number (.ok bytes)
      ↔ ∃ n : Nat, number = n ∧ (c.roleOf p table n).Shows p number (m.held p (c.spotOf table n)) bytes := by
  obtain ⟨isId, s, resolved, planned⟩ := ready.planned found
  have read : ∀ {d : Declared}, d ∈ c.declared → m.read p c d.slot = .ok (m.slot d.slot) := fun declared =>
    ranged.read_slot ready found (fun _ => id) declared
  constructor
  · rw [carries_iff_sends]
    rintro (⟨d, declared, rfl, v, value, sends⟩ | ⟨⟨e, v⟩, set, rfl, isResult⟩)
    · have named : d.number = d.number.toNat :=
        (Int.toNat_of_nonneg ((valid.of_plan found).numbers _ declared).1.le).symm
      obtain rfl := Except.ok.inj ((read declared).symm.trans value)
      refine ⟨d.number.toNat, named, ?_⟩
      rw [roleOf_declared planned resolved declared named, spotOf_declared planned resolved declared named,
        Content.held]
      generalize m.slot d.slot = held at sends
      generalize isResult : (Except.ok bytes : Except Fault Bytes) = result at sends
      cases sends with
      | field present => exact .alone present isResult.symm
      | member active => exact .member active isResult.symm
    · obtain ⟨-, isRanged, -, fits⟩ := ranged.extensions _ set
      have positive := ((valid.of_plan found).number_of_ranged isRanged).1
      have named : e.number = e.number.toNat := (Int.toNat_of_nonneg positive.le).symm
      obtain ⟨spot, role⟩ := spotOf_extension ready found ranged set named
      have there : m.extension? e.number = Option.some v :=
        (extension?_eq_some_iff ranged.distinct).2 ⟨e, set, rfl⟩
      refine ⟨e.number.toNat, named, ?_⟩
      rw [spot, role, Content.held, Content.extended, there, Option.getD_some]
      exact .alone (Extension.isPresent_of_encoding Rules.encodable_ranged fits isResult some)
        ((e.encoding_eq p v).symm.trans isResult)
  · rintro ⟨n, rfl, shows⟩
    have puts : c.Puts p table n _ _ := puts planned resolved n
    generalize c.roleOf p table n = role at shows puts
    generalize c.spotOf table n = spot at shows puts
    cases puts with
    | unknown => cases shows
    | field declared named =>
      cases shows with
      | alone present encoded =>
        rw [← encoded, ← named]
        exact .field declared (read declared) present
    | @member slot o x first declared named =>
      generalize isHeld : m.held p (.slot slot) = held at shows
      cases shows with
      | member active encoded =>
        rw [← encoded, ← named]
        exact .member declared ((read declared).trans (congrArg _ isHeld)) (named ▸ active)
    | @extension e undeclared known =>
      obtain ⟨known, isTable, isKnown⟩ := known
      have keys := ExtensionTable.keys_of_find isKnown
      cases shows with
      | alone present encoded =>
        simp only [Content.held, Content.extended] at present encoded
        cases there : m.extension? e.number with
        | none =>
          rw [there, Option.getD_none, isPresent_initial_extension] at present
          cases present
        | some v =>
          rw [there, Option.getD_some] at encoded
          obtain ⟨e', set, same⟩ := (extension?_eq_some_iff ranged.distinct).1 there
          obtain ⟨-, -, known', -⟩ := ranged.extensions _ set
          obtain ⟨other, isOther, isKnown'⟩ := known'
          cases isTable.symm.trans isOther
          rw [same, keys.2, ← isId, isKnown] at isKnown'
          cases isKnown'
          have carries : Carries p c m e'.number (e'.encoding p v) := .extension set
          rw [e'.encoding_eq, keys.2, encoded] at carries
          exact carries

omit ranged valid in
/-- No field has the number zero. -/
lemma spotOf_zero : c.spotOf table 0 = .unknown := by
  obtain ⟨-, s, resolved, planned⟩ := ready.planned found
  have undeclared : ∀ d ∈ c.declared, d.number ≠ (0 : Nat) := by
    intro d declared same
    have inside : d.number ∈ s.fields.map (·.number) := planned.numbers_eq ▸ mem_map_of_mem declared
    obtain ⟨f, isField, isNumber⟩ := mem_map.1 inside
    have := resolved.positive f isField
    omega
  have outside : c.ranges.contains (0 : Nat) = false := by
    rw [Bool.eq_false_iff, planned.ranges]
    intro isRanged
    obtain ⟨range, inside, between⟩ := any_eq_true.1 isRanged
    have := resolved.nonempty range inside
    simp only [Bool.and_eq_true, decide_eq_true_eq] at between
    omega
  rw [spotOf_undeclared planned resolved undeclared, outside]
  rfl

end carries

/-- What is encoded as nothing does not count. -/
lemma flatMap_filter_ne_nil (encodings : List (Int × Bytes)) :
    (encodings.filter fun x => x.2 ≠ []).flatMap (·.2) = encodings.flatMap (·.2) := by
  induction encodings with
  | nil => rfl
  | cons x rest ih =>
    by_cases empty : x.2 = []
    · rw [filter_cons_of_neg (by simpa using empty), flatMap_cons, empty, nil_append, ih]
    · rw [filter_cons_of_pos (by simpa using empty), flatMap_cons, flatMap_cons, ih]

section writing

variable {m' : Content} (mirror : Mirror p table p' table')
  (written : ∀ ⦃below group t x x'⦄, N below group t x x' → p'.serialize x' = p.serialize x)
  (messages : ∀ ⦃below group t x x'⦄, N below group t x x' → x.isPresent = true ∧ x'.isPresent = true)

include mirror written messages

/-- What is held under a number shows on both sides or on none. -/
lemma Role.Relates.shows_iff {role : Role} {spot spot' : Spot} (found : p.plan? t = some c)
    (found' : p'.plan? t = some c') (here : c.Puts p table number spot role)
    (there : c'.Puts p' table' number spot' role') (alike : role.Alike role')
    (related : role.Relates N depth t c c' number role' v v') :
    role.Shows p number v bytes ↔ role'.Shows p' number v' bytes := by
  cases alike with
  | unknown => constructor <;> rintro ⟨⟩
  | alone alike =>
    cases related with
    | alone related =>
      have present := isPresent_of_relates alike messages related
      constructor
      · rintro ⟨isPresent, encoded⟩
        exact .alone (present.trans isPresent) ((related.encoding_eq written alike isPresent number).trans encoded)
      · rintro ⟨isPresent, encoded⟩
        rw [present] at isPresent
        exact .alone isPresent ((related.encoding_eq written alike isPresent number).symm.trans encoded)
  | @member slot slot' o o' y y' first first' alike =>
    cases related with
    | unset => constructor <;> rintro ⟨⟩
    | @set _ _ _ _ _ _ _ _ e e' x x' one one' w w' declared declared' named alike' related =>
      -- Only the member that is set shows, and it is the same on both sides.
      obtain ⟨-, s, resolved, planned⟩ := mirror.ready.planned found
      obtain ⟨-, s', resolved', planned'⟩ := mirror.ready'.planned found'
      cases here with
      | member own isNumber =>
      cases there with
      | member own' isNumber' =>
      have same : x.number = number → y'.kind.encoding p' number w' = y.kind.encoding p number w := by
        intro isActive
        obtain ⟨-, -, rfl, -⟩ :=
          Declared.member.inj (planned.declared_ext resolved own declared (isNumber.trans isActive.symm))
        obtain ⟨-, -, rfl, -⟩ := Declared.member.inj (planned'.declared_ext resolved' own' declared'
          (isNumber'.trans (named.trans isActive).symm))
        exact related.encoding_eq written alike' number
      constructor
      · rintro ⟨⟩
        exact .member ‹_› ((same (by simp_all)).trans ‹_›)
      · rintro ⟨⟩
        exact .member ‹_› ((same (by simp_all)).symm.trans ‹_›)

/-- **Writing.**  Messages that mirror each other are written in the same way. -/
lemma Mirrored.serialize_eq (mirrored : Mirrored p table p' table' N depth t c c' m m') :
    p'.serialize m'.value = p.serialize m.value := by
  obtain ⟨found, found', -, ranged, ranged', held⟩ := mirrored
  obtain ⟨-, s, resolved, planned⟩ := mirror.ready.planned found
  obtain ⟨-, s', resolved', planned'⟩ := mirror.ready'.planned found'
  have spelled : (inside p (.ranged table) (fun _ => False) (maxDepth + 1 - depth)).Spelled p (.ranged table) :=
    spelled_inside (fun _ _ _ _ typed => mirror.spells typed) nofun
  have spelled' : (inside p' (.ranged table') (fun _ => False) (maxDepth + 1 - depth)).Spelled p' (.ranged table') :=
    spelled_inside (fun _ _ _ _ typed => mirror.spells' typed) nofun
  obtain ⟨one, ascending, carried, spells⟩ := ranged.exists_encodings found planned resolved mirror.ready.regular
    Rules.encodable_ranged spelled
  obtain ⟨two, ascending', carried', spells'⟩ := ranged'.exists_encodings found' planned' resolved'
    mirror.ready'.regular Rules.encodable_ranged spelled'
  have shown : ∀ {number : Int} {bytes : Bytes}, bytes ≠ [] →
      (Carries p c m number (.ok bytes) ↔ Carries p' c' m' number (.ok bytes)) := by
    intro number bytes some
    rw [carries_iff_shows mirror.ready mirror.valid found ranged some,
      carries_iff_shows mirror.ready' mirror.valid' found' ranged' some]
    refine exists_congr fun n => and_congr_right fun isNumber => ?_
    subst isNumber
    exact (held n).shows_iff mirror written messages found found' (puts planned resolved n)
      (puts planned' resolved' n) ((mirror.classes found found').roles n)
  have same : two.filter (fun x => x.2 ≠ []) = one.filter fun x => x.2 ≠ [] := by
    refine eq_of_ascending (ascending'.filter _) (ascending.filter _) fun x => ?_
    simp only [mem_filter, ne_eq, decide_not, Bool.not_eq_true', decide_eq_false_iff_not]
    refine and_congr_left fun some => ?_
    have here := carried x.1 (.ok x.2)
    have there := carried' x.1 (.ok x.2)
    simp only [Except.ok.injEq, exists_eq_left'] at here there
    exact there.symm.trans ((shown some).symm.trans here)
  have unknown : m'.head.unknown = m.head.unknown := by
    have related := held 0
    rw [spotOf_zero mirror.ready found, spotOf_zero mirror.ready' found'] at related
    rw [(puts planned resolved 0).unknown_iff.1 (spotOf_zero mirror.ready found),
      (puts planned' resolved' 0).unknown_iff.1 (spotOf_zero mirror.ready' found')] at related
    generalize isHeld : m.held p .unknown = v at related
    generalize isHeld' : m'.held p' .unknown = v' at related
    cases related
    exact Scalar.bytes.inj (Value.scalar.inj (isHeld'.trans isHeld.symm))
  rw [spells.serialize, spells'.serialize, ← flatMap_filter_ne_nil one, ← flatMap_filter_ne_nil two, same, unknown]

omit written messages in
/-- **All levels.** -/
lemma reflected_serialize ⦃below : Nat⦄ ⦃group : Option Nat⦄ ⦃t : TypeId⦄ ⦃v v' : Value⦄
    (reflected : Reflected p table p' table' levels below group t v v') : p'.serialize v' = p.serialize v := by
  induction levels generalizing below group t v v' with
  | zero => exact reflected.elim
  | succ levels ih =>
    obtain ⟨m, m', c, c', rfl, rfl, mirrored⟩ := reflected
    refine mirrored.serialize_eq mirror (fun _ _ _ _ _ nested => ih nested) ?_
    intro below group t x x' nested
    cases levels with
    | zero => exact nested.elim
    | succ =>
      obtain ⟨n, n', -, -, rfl, rfl, -⟩ := nested
      exact ⟨rfl, rfl⟩

end writing

/-! ## Reading and writing -/

/-- **Programs that mirror each other** read the same data, and write what they have read in the same way. -/
lemma Mirror.parse_iff (mirror : Mirror p table p' table') (found : p.plan? t = some c) (data : Bytes) :
    (∃ f f', parse p table t data = .error f ∧ parse p' table' t data = .error f')
      ∨ ∃ m m' bytes, parse p table t data = .ok m ∧ parse p' table' t data = .ok m'
        ∧ p.serialize m.value = .ok bytes ∧ p'.serialize m'.value = .ok bytes := by
  cases parsed : parse p table t data with
  | error f =>
    cases parsed' : parse p' table' t data with
    | error f' => exact .inl ⟨f, f', rfl, rfl⟩
    | ok =>
      have isClass : (p'.plan? t).isSome = true := by rw [mirror.plans, found]; rfl
      obtain ⟨c', found'⟩ := Option.isSome_iff_exists.1 isClass
      obtain ⟨m, -, accepted, -⟩ := mirror.symm.exists_mirrored found' parsed'
      cases parsed.symm.trans accepted
  | ok m =>
    obtain ⟨m', c', parsed', mirrored⟩ := mirror.exists_mirrored found parsed
    have typed : Typed p (.ranged table) (fun _ => False) (maxDepth + 1) t m.value := by
      rw [typed_eq]
      exact ⟨c, m, found, rfl, mirrored.ranged⟩
    obtain ⟨bytes, spells⟩ := mirror.spells typed
    have reflected : Reflected p table p' table' (maxDepth + 2) 0 none t m.value m'.value :=
      ⟨m, m', c, c', rfl, rfl, mirrored⟩
    exact .inr ⟨m, m', bytes, rfl, parsed', spells.serialize,
      (reflected_serialize mirror reflected).trans spells.serialize⟩

end Missive
