import Missive.Proofs.Message.Settled

/-!
# Equality is an equivalence

Messages are equal to themselves, and which of two equal messages is asked does not matter, whatever messages they hold
as any other one (`Held`).

**Transitivity** needs more.  A message that holds any other one may know its content as a message or by its bytes.
Contents are compared as messages if both are known so, and by their bytes otherwise, and the two comparisons differ
where equal messages are written in different ways, or different ones in the same way.  It is transitive if contents
are packed messages (`Packed`), for which the comparisons come to the same.
-/

namespace Missive

open Plan Schema Program

/-- What is asked of all messages: scalars are of the type of their field, and numbers are numbers. -/
def Rules.ofType : Rules where
  scalar := fun type s => s.sameType type.default = true ∧ s.isNaN = false

lemma Rules.plain_ofType : Rules.ofType.Plain := fun _ _ => id

/-- Messages that may hold any other one, and those again, to some depth. -/
def Held (p : Program) (R : Rules) (levels : Nat) : Nat → Value → Prop
  | 0, _ => False
  | k + 1, v => ∃ t, Typed p R (Held p R levels k) levels t v

section held

variable {p : Program} {R : Rules} (plain : R.Plain) (comparable : p.Comparable)
  (shared : ∀ {t c}, p.plan? t = some c → c.isAny = true → c.isIndirected = true)

include plain comparable shared

/-- Whatever is held, equality is reflexive and symmetric. -/
lemma contentsEquate_held (w : Sources) (levels k : Nat) :
    ContentsEquate p False (Value.From w) (Held p R levels k) := by
  induction k with
  | zero =>
    exact ⟨fun v => False.elim, fun v => False.elim, fun v v' one => one.1.elim, False.elim, False.elim⟩
  | succ k ih =>
    refine ⟨?_, ?_, ?_, False.elim, False.elim⟩
    · rintro v ⟨t, typed⟩
      exact typed.isMessage
    · rintro v ⟨t, typed⟩
      exact typed.itself plain comparable shared ih
    · exact fun v v' => (equates_classes plain comparable shared (fun v => id) ih levels).symm

end held

variable {content : Value → Prop} {levels : Nat} {t : TypeId} {f : FieldPlan} {v : Value}

lemma typed_single {p : Program} {R : Rules} (unknown : R.unknown levels t [])
    (isPlan : (p.plan? t).map (fun c => (c.isAny, c.slots))
      = some (false, [.field f])) (fits : f.kind.Fits R (inside p R content levels) v) :
    Typed p R content levels t (.message { type := t } [v] [] []) :=
  typed_headed rfl rfl unknown isPlan fits

def pointFiles : List FileDecl :=
  [{ name := "a.proto", messages := [{ name := "M", fields := [{ name := "x", number := 1, type := .double }] }] }]

def pointProgram : Program := .ofFiles pointFiles

def pointAt (x : Binary64) : Value := .message { type := 0 } [.scalar (.float x)] [] []

lemma evaluated_point :
    ((Program.build pointFiles {}).isOk = true ∧ pointProgram.arena.Regular ∧ pointProgram.Clear
      ∧ pointProgram.Comparable ∧ pointProgram.Valid)
      ∧ (pointProgram.plan? 0).map (fun c => (c.isAny, c.slots))
        = some (false, [.field ⟨"x", "_x", 1, .scalar .double true (.float .zero)⟩])
      ∧ equal pointProgram (pointAt .zero) (pointAt ⟨0x8000000000000000⟩) = .ok true
      ∧ ∀ entry ∈ pointProgram.classes, entry.2.isAny = false := by
  decide +kernel

lemma typed_pointAt {x : Binary64} (number : x.isNaN = false) :
    Typed pointProgram .ofType content levels 0 (pointAt x) :=
  typed_single trivial evaluated_point.2.1 (.inr ⟨.float x, rfl, rfl, number⟩)

/-- It was not read from anywhere. -/
lemma sincere_pointAt {w : Sources} (x : Binary64) : (pointAt x).Every (Value.Sincere w pointProgram) := by
  rw [pointAt, Value.every_message]
  refine ⟨⟨?_, ?_⟩, ?_, by simp⟩
  · intro o impossible
    cases impossible
  · intro c _ _ url data content impossible
    simp at impossible
  · simp only [List.mem_singleton, forall_eq, Value.every_scalar]
    exact ⟨trivial, trivial⟩

def comparingFiles : List FileDecl :=
  [{ name := "a.proto", messages := [{ name := "M", fields := [{ name := "__eq__", number := 1, type := .int32 }] }] }]

end Missive
