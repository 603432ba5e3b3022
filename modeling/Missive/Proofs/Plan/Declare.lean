import Missive.Proofs.Plan.Narrow
import Missive.Proofs.Schema.Declare

/-!
# Plans with one more field

If a message declares one more field, its class gets the field, and the classes of all other messages are
coded as before.  `Pairs` says what becomes of a number: it is declared on both sides, it is the one that is
declared now, or it is declared on neither side and in an extension range on both or on none.
-/

namespace Missive

open Plan Schema List

/-- What becomes of a number in a class, if a field of a certain kind may be new in it. -/
inductive Plan.ClassPlan.Pairs (isNew : Prop) (isKind : FieldKind → Prop) (c c' : ClassPlan) (number : Int) : Prop
  | declared {d d' : Declared} (here : d ∈ c.declared) (there : d' ∈ c'.declared) (alike : d'.Alike d)
      (named : d.number = number)
  | new {slot : Nat} {f : FieldPlan} (new : isNew) (kind : isKind f.kind)
      (here : ∀ d ∈ c.declared, d.number ≠ number) (there : Declared.field slot f ∈ c'.declared)
      (named : f.number = number)
  | free (old : ¬isNew) (here : ∀ d ∈ c.declared, d.number ≠ number) (there : ∀ d ∈ c'.declared, d.number ≠ number)
      (ranges : c'.ranges.contains number = c.ranges.contains number)

namespace Plan

section classes

variable {a a' : Arena} {s s' : Message} {c c' : ClassPlan} {isNew : Prop} {isKind : FieldKind → Prop} {number : Int}
  (planned : Planned a s c) (planned' : Planned a' s' c') (fewer : c'.Fewer c)

include planned planned' fewer

/-- A number that is not new is declared on both sides or on none. -/
lemma pairs_old (old : ¬isNew) (numbers : number ∈ s'.fields.map (·.number) → number ∈ s.fields.map (·.number))
    (ranges : s'.ranges.contains number = s.ranges.contains number) : c.Pairs isNew isKind c' number := by
  by_cases declared : ∃ d ∈ c.declared, d.number = number
  · obtain ⟨d, here, named⟩ := declared
    obtain ⟨d', there, alike⟩ := fewer.kept d here
    exact .declared here there alike named
  · refine .free old (fun d here same => declared ⟨d, here, same⟩) (fun d' there same => declared ?_) ?_
    · rw [← planned.numbers_eq, ← planned'.numbers_eq] at numbers
      exact mem_map.1 (numbers (same ▸ mem_map_of_mem there))
    · rw [planned'.ranges, planned.ranges, ranges]

/-- Where a field was declared, it is the only one that has come. -/
lemma pairs_gains {g : Field} (gains : s.Gains g s') (alone : g.oneof = none)
    (isNumber : isNew ↔ g.number = number) (kinds : ∀ kind, KindOf a' s' g kind → isKind kind) :
    c.Pairs isNew isKind c' number := by
  obtain ⟨before, after, whole, more⟩ := gains.fields
  have distinct := gains.distinct
  rw [more, map_append, map_cons, nodup_middle, nodup_cons, ← map_append, ← whole, ← planned.numbers_eq] at distinct
  have free : ∀ d ∈ c.declared, d.number ≠ g.number := fun d here same =>
    distinct.1 (same ▸ mem_map_of_mem here)
  by_cases same : g.number = number
  · have inside : g ∈ s'.fields := by simp [more]
    obtain ⟨oneofs, d, there, presents⟩ := planned'.exists_presented inside
    cases presents with
    | field plain named kind =>
      exact .new (isNumber.2 same) (kinds _ kind) (same ▸ free) there (named.trans same)
    | member isMember => simp [Message.oneofOf, alone] at isMember
  · refine pairs_old planned planned' fewer (fun new => same (isNumber.1 new)) (fun inside => ?_) ?_
    · rw [more, map_append, map_cons, mem_append, mem_cons] at inside
      rw [whole, map_append, mem_append]
      exact inside.imp id fun later => later.resolve_left (Ne.symm same)
    · have differs : (number != g.number) = true := bne_iff_ne.2 (Ne.symm same)
      rw [gains.ranges, differs, Bool.and_true]

end classes

end Plan

namespace Program

/-- The kinds of the field that a message of the older dialect declares. -/
def NewKind (a : Arena) (g : Field) (kind : FieldKind) : Prop :=
  ∃ s, s.proto3 = false ∧ KindOf a s g kind

/-- **One more field.**  If the message at a position declares one more field, its class gets the field, and
otherwise all classes are coded as before. -/
lemma exists_pairs {files : List FileDecl} {options options' : Plan.Options} {p p' : Program} {x : TypeId}
    {position : Nat} {f : FieldDecl} (built : build files options = .ok p)
    (built' : build (files.map (·.declaring (p.arena.path x) position f)) options' = .ok p')
    (regular' : p'.arena.Regular) (uniform' : p'.arena.Uniform) (alone : f.oneof = none)
    (plain : ∀ s ∈ p.arena.message? x, s.proto3 = false ∧ s.mapEntry = false)
    (unique : ∀ t, (p.plan? t).isSome = true → p.arena.path t = p.arena.path x → t = x) {t : TypeId} {c : ClassPlan}
    (found : p.plan? t = some c) :
    ∃ c', p'.plan? t = some c' ∧ c'.Fewer c ∧ ∀ number, c.Pairs (t = x ∧ f.number = number)
      (NewKind p'.arena (f.resolved p.arena (p.arena.path x))) c' number := by
  have gains := gains_of_build alone (arena_of_build built) (arena_of_build built')
  have fewer := fewer_of_gains gains
  have shaped : p.arena.Shaped p'.arena := fewer.shaped.flip fun ⟨proto3, mapEntry⟩ => ⟨proto3.symm, mapEntry.symm⟩
  have names : (files.map (·.declaring (p.arena.path x) position f)).map (·.name) = files.map (·.name) := map_map
  obtain ⟨c', found'⟩ := exists_plan built built' names shaped found
  have isClass : (p.plan? t).isSome = true := by rw [found]; rfl
  obtain ⟨rfl, s, resolved, planned⟩ := planned_of_build built found
  obtain ⟨same, s', resolved', planned'⟩ := planned_of_build built' found'
  have left : c'.Fewer c := planned'.class_fewer fewer regular' resolved' resolved (uniform'.message planned'.found)
    planned same.symm
  refine ⟨c', found', left, fun number => ?_⟩
  obtain ⟨n, _, node, there, related⟩ := gains.exists_message (same ▸ planned'.found)
  cases planned.found.symm.trans there
  have isPath : p.arena.path c.id = n.path := by rw [Forest.path, node]; rfl
  unfold Message.GainsAt at related
  split at related
  · rename_i isHere
    obtain rfl : c.id = x := unique _ isClass (isPath.trans isHere.1)
    refine pairs_gains planned planned' left related rfl ⟨fun new => new.2, fun same => ⟨rfl, same⟩⟩
      fun kind isKind => ?_
    exact ⟨s', related.proto3.trans isHere.2.1, isKind⟩
  · rename_i elsewhere
    subst related
    refine pairs_old planned planned' left (fun new => elsewhere ?_) id rfl
    obtain rfl := new.1
    exact ⟨isPath.symm, plain _ planned.found⟩

end Program

end Missive
