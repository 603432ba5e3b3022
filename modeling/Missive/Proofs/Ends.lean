import Mathlib

/-!
# How actions end

Reading, decoding and storing are actions on a state that may fail part of the way.  `Ends` says of
one run of an action what holds if it ends well and what holds if it fails; the state counts in both
cases, since what was done before a failure stays done.

The rules below take an action apart along its own structure.  As `simp` lemmas they turn a statement
about an action into one about its parts, each of which has a lemma of its own.

Building and planning only matter where they succeed.  For them `bind_ok` and `mapM_ok` give back the
parts of a success.
-/

namespace Missive

open List

variable {ε σ α β : Type}
variable {l : List α} {s' s : σ} {a : α} {f : α → EStateM ε σ β} {bs : List β} {Q' : α → σ → Prop} {x : EStateM ε σ α}

/-- An action that starts in a state ends well as `Q` says or fails as `E` says. -/
def Ends (x : EStateM ε σ α) (s : σ) (Q : α → σ → Prop) (E : ε → σ → Prop) : Prop :=
  match x s with
  | .ok a s' => Q a s'
  | .error e s' => E e s'

section rules

variable {Q : α → σ → Prop} {E : ε → σ → Prop}

lemma ends_of_ok (h : x s = .ok a s') : Ends x s Q E ↔ Q a s' := by
  simp only [Ends, h]

lemma ends_of_error {e : ε} (h : x s = .error e s') : Ends x s Q E ↔ E e s' := by
  simp only [Ends, h]

/-- An action that starts in a state ends well, as `Q` says. -/
abbrev Succeeds (x : EStateM ε σ α) (s : σ) (Q : α → σ → Prop) : Prop := Ends x s Q fun _ _ => False

/-- A run that cannot fail has a result. -/
lemma Succeeds.exists_run (h : Succeeds x s Q) : ∃ a s', x s = .ok a s' ∧ Q a s' := by
  unfold Succeeds Ends at h
  cases run : x s with
  | ok a s' =>
    rw [run] at h
    exact ⟨a, s', rfl, h⟩
  | error =>
    rw [run] at h
    exact h.elim

lemma succeeds_iff : Succeeds x s Q ↔ ∃ a s', x s = .ok a s' ∧ Q a s' := by
  unfold Succeeds Ends
  cases x s <;> simp

lemma run_eq_ok_iff : x s = .ok a s' ↔ Succeeds x s fun b t => b = a ∧ t = s' := by
  unfold Succeeds Ends
  cases x s <;> simp

lemma run_eq_done_iff {y : EStateM ε σ Unit} : y s = .ok () s' ↔ Succeeds y s fun _ t => t = s' := by
  simp only [run_eq_ok_iff, true_and]

/-- What holds of the end of a run may be weakened. -/
lemma Ends.mono {E' : ε → σ → Prop} (h : Ends x s Q E) (ok : ∀ a s', Q a s' → Q' a s')
    (error : ∀ e s', E e s' → E' e s') : Ends x s Q' E' := by
  unfold Ends at h ⊢
  cases run : x s with
  | ok a s' =>
    rw [run] at h
    exact ok a s' h
  | error e s' =>
    rw [run] at h
    exact error e s' h

lemma Succeeds.ends (h : Succeeds x s Q) (later : ∀ a s', Q a s' → Q' a s') : Ends x s Q' E :=
  h.mono later fun _ _ impossible => impossible.elim

/-- If an action that starts in a state ends well, then as `Q` says. -/
abbrev Yields (x : EStateM ε σ α) (s : σ) (Q : α → σ → Prop) : Prop := Ends x s Q fun _ _ => True

lemma yields_iff : Yields x s Q ↔ ∀ a s', x s = .ok a s' → Q a s' := by
  unfold Yields Ends
  cases x s <;> simp

lemma Ends.yields (h : Ends x s Q E) : Yields x s Q :=
  h.mono (fun _ _ ends => ends) fun _ _ _ => trivial

lemma Yields.imp (h : Yields x s Q) (later : ∀ a s', Q a s' → Q' a s') : Yields x s Q' :=
  h.mono later fun _ _ _ => trivial

@[simp] lemma ends_pure (a : α) : Ends (pure a) s Q E ↔ Q a s := Iff.rfl

@[simp] lemma ends_throw (e : ε) : Ends (throw e : EStateM ε σ α) s Q E ↔ E e s := Iff.rfl

@[simp] lemma ends_bind {Q : β → σ → Prop} : Ends (x >>= f) s Q E ↔ Ends x s (fun a s' => Ends (f a) s' Q E) E := by
  show Ends (EStateM.bind x f) s Q E ↔ _
  unfold Ends EStateM.bind
  cases x s <;> rfl

@[simp] lemma ends_get {Q : σ → σ → Prop} : Ends (get : EStateM ε σ σ) s Q E ↔ Q s s := Iff.rfl

@[simp] lemma ends_set {Q : PUnit → σ → Prop} (t : σ) :
    Ends (set t : EStateM ε σ PUnit) s Q E ↔ Q ⟨⟩ t := Iff.rfl

@[simp] lemma ends_modify {Q : PUnit → σ → Prop} (f : σ → σ) :
    Ends (modify f : EStateM ε σ PUnit) s Q E ↔ Q ⟨⟩ (f s) := Iff.rfl

@[simp] lemma ends_ite {c : Prop} [Decidable c] {y : EStateM ε σ α} :
    Ends (if c then x else y) s Q E ↔ if c then Ends x s Q E else Ends y s Q E := by
  split <;> rfl

end rules

/-! ## Successes -/

lemma exists_right_of_mem {R : α → β → Prop} {as : List α} (h : Forall₂ R as bs)
    (member : a ∈ as) : ∃ b ∈ bs, R a b := by
  induction h with
  | nil => cases member
  | cons first _ ih =>
    rcases mem_cons.1 member with rfl | later
    · exact ⟨_, .head _, first⟩
    · obtain ⟨b, inside, related⟩ := ih later
      exact ⟨b, .tail _ inside, related⟩

lemma exists_left_of_mem {R : α → β → Prop} {as : List α} (h : Forall₂ R as bs) {b : β}
    (member : b ∈ bs) : ∃ a ∈ as, R a b :=
  exists_right_of_mem h.flip member

lemma eq_ok_of_toOption {x : Except ε α} (h : x.toOption = some a) : x = .ok a := by
  cases x with
  | error => cases h
  | ok => exact congrArg Except.ok (Option.some.inj h)

lemma exists_of_isOk {x : Except ε α} (able : x.isOk = true) : ∃ a, x = .ok a := by
  cases x with
  | ok a => exact ⟨a, rfl⟩
  | error => exact absurd able Bool.false_ne_true

lemma bind_ok {x : Except ε α} {f : α → Except ε β} {b : β} (h : x >>= f = .ok b) :
    ∃ a, x = .ok a ∧ f a = .ok b := by
  cases x with
  | error => exact absurd h (by simp [bind, Except.bind])
  | ok a => exact ⟨a, rfl, h⟩

/-- A success on a list is one on every entry. -/
lemma mapM_ok {f : α → Except ε β} (h : l.mapM f = .ok bs) : Forall₂ (fun a b => f a = .ok b) l bs := by
  induction l generalizing bs with
  | nil =>
    obtain rfl : bs = [] := by simpa [pure, Except.pure, eq_comm] using h
    exact .nil
  | cons a rest ih =>
    rw [mapM_cons] at h
    obtain ⟨b, first, h⟩ := bind_ok h
    obtain ⟨others, more, h⟩ := bind_ok h
    obtain rfl : bs = b :: others := by simpa [pure, Except.pure, eq_comm] using h
    exact .cons first (ih more)

/-- A success on a list that leaves out entries. -/
lemma filterMapM_ok {f : α → Except ε (Option β)} (h : l.filterMapM f = .ok bs) :
    ∃ os, Forall₂ (fun a o => f a = .ok o) l os ∧ bs = os.filterMap id := by
  induction l generalizing bs with
  | nil =>
    obtain rfl : bs = [] := by simpa [pure, Except.pure, eq_comm] using h
    exact ⟨[], .nil, rfl⟩
  | cons a rest ih =>
    rw [filterMapM_cons] at h
    obtain ⟨o, first, h⟩ := bind_ok h
    cases o with
    | none =>
      obtain ⟨os, entries, rfl⟩ := ih h
      exact ⟨none :: os, .cons first entries, rfl⟩
    | some b =>
      obtain ⟨others, more, h⟩ := bind_ok h
      obtain rfl : bs = b :: others := by simpa [pure, Except.pure, eq_comm] using h
      obtain ⟨os, entries, rfl⟩ := ih more
      exact ⟨some b :: os, .cons first entries, rfl⟩

lemma mapM_mem {f : α → Except ε β} (h : l.mapM f = .ok bs) {b : β}
    (member : b ∈ bs) : ∃ a ∈ l, f a = .ok b := exists_left_of_mem (mapM_ok h) member

/-- A success of an action in two steps has a first step. -/
lemma run_bind_ok {b : β} (h : (x >>= f) s = .ok b s') : ∃ a t, x s = .ok a t ∧ f a t = .ok b s' := by
  change EStateM.bind x f s = .ok b s' at h
  unfold EStateM.bind at h
  cases run : x s with
  | ok a t =>
    rw [run] at h
    exact ⟨a, t, rfl, h⟩
  | error =>
    rw [run] at h
    cases h

lemma bind_run_ok {t : σ} {b : β} (first : x s = .ok a t) (second : f a t = .ok b s') : (x >>= f) s = .ok b s' := by
  change EStateM.bind x f s = .ok b s'
  rw [EStateM.bind, first]
  exact second

/-- What a success of an action on a list gives comes from one of its entries. -/
lemma run_mapM_mem (h : l.mapM f s = .ok bs s') {b : β} (member : b ∈ bs) : ∃ a ∈ l, ∃ t t', f a t = .ok b t' := by
  induction l generalizing bs s with
  | nil =>
    obtain ⟨rfl, -⟩ : [] = bs ∧ s = s' := by simpa [pure, EStateM.pure] using h
    cases member
  | cons a rest ih =>
    rw [mapM_cons] at h
    obtain ⟨b', t, first, h⟩ := run_bind_ok h
    obtain ⟨others, t', more, h⟩ := run_bind_ok h
    obtain ⟨rfl, rfl⟩ : b' :: others = bs ∧ t' = s' := by simpa [pure, EStateM.pure] using h
    rcases mem_cons.1 member with rfl | later
    · exact ⟨a, .head _, s, t, first⟩
    · obtain ⟨a', inside, found⟩ := ih more later
      exact ⟨a', .tail _ inside, found⟩

/-! ## Kept invariants -/

/-- An action keeps an invariant of the state, what it gives is as `Q` says, and it fails only as `E`
says. -/
def Runs (E : ε → Prop) (I : σ → Prop) (x : EStateM ε σ α) (Q : α → Prop) : Prop :=
  ∀ s, I s → Ends x s (fun a t => I t ∧ Q a) fun e _ => E e

/-- An action keeps an invariant of the state, and what it gives is as `Q` says. -/
abbrev Keeps (I : σ → Prop) (x : EStateM ε σ α) (Q : α → Prop) : Prop := Runs (fun _ => True) I x Q

section runs

variable {E : ε → Prop} {I : σ → Prop} {Q : α → Prop}

lemma Keeps.run (h : Keeps I x Q) {t : σ} (before : I s) (run : x s = .ok a t) : I t ∧ Q a :=
  yields_iff.1 (h s before) a t run

lemma runs_pure (h : Q a) : Runs E I (pure a : EStateM ε σ α) Q := fun _ before => ⟨before, h⟩

lemma runs_throw {e : ε} (h : E e) : Runs E I (throw e : EStateM ε σ α) Q := fun _ _ => h

lemma Runs.mono {Q' : α → Prop} (h : Runs E I x Q) (later : ∀ a, Q a → Q' a) : Runs E I x Q' :=
  fun s before => (h s before).mono (fun a _ ends => ⟨ends.1, later a ends.2⟩) fun _ _ fails => fails

lemma Runs.bind {Q' : β → Prop} (h : Runs E I x Q) (next : ∀ a, Q a → Runs E I (f a) Q') : Runs E I (x >>= f) Q' := by
  intro s before
  exact ends_bind.2 ((h s before).mono (fun a t ends => next a ends.2 t ends.1) fun _ _ fails => fails)

lemma runs_mapM {Q : α → β → Prop} (each : ∀ a ∈ l, Runs E I (f a) (Q a)) : Runs E I (l.mapM f) (Forall₂ Q l) := by
  induction l with
  | nil => exact runs_pure .nil
  | cons a rest ih =>
    rw [mapM_cons]
    refine (each a (.head _)).bind fun b first => ?_
    refine (ih fun a' inside => each a' (.tail _ inside)).bind fun bs others => ?_
    exact runs_pure (.cons first others)

lemma runs_filterMapM {f : α → EStateM ε σ (Option β)} {Q : α → Option β → Prop}
    (each : ∀ a ∈ l, Runs E I (f a) (Q a)) :
    Runs E I (l.filterMapM f) fun bs => ∃ os, Forall₂ Q l os ∧ bs = os.filterMap id := by
  induction l with
  | nil => exact runs_pure ⟨[], .nil, rfl⟩
  | cons a rest ih =>
    rw [filterMapM_cons]
    have rest := ih fun a' inside => each a' (.tail _ inside)
    refine (each a (.head _)).bind fun o first => ?_
    cases o with
    | none =>
      refine rest.mono fun bs later => ?_
      obtain ⟨os, entries, rfl⟩ := later
      exact ⟨none :: os, .cons first entries, rfl⟩
    | some b =>
      refine rest.bind fun bs later => runs_pure ?_
      obtain ⟨os, entries, rfl⟩ := later
      exact ⟨some b :: os, .cons first entries, rfl⟩

/-- Which entries of a list are kept is told by the answers for each. -/
lemma runs_filterM {f : α → EStateM ε σ Bool} {Q : α → Bool → Prop} (each : ∀ a ∈ l, Runs E I (f a) (Q a)) :
    Runs E I (l.filterM f) fun kept => (∀ a ∈ kept, a ∈ l ∧ Q a true) ∧ ∀ a ∈ l, a ∈ kept ∨ Q a false := by
  -- The entries that were kept so far stand in front, in reverse order.
  have step : ∀ done : List α, Runs E I (l.filterAuxM f done) fun kept => done ⊆ kept
      ∧ (∀ a ∈ kept, a ∈ done ∨ a ∈ l ∧ Q a true) ∧ ∀ a ∈ l, a ∈ kept ∨ Q a false := by
    induction l with
    | nil => exact fun done => runs_pure ⟨List.Subset.refl _, fun a inside => .inl inside, by simp⟩
    | cons a rest ih =>
      intro done
      rw [List.filterAuxM]
      refine (each a (.head _)).bind fun b answer => ?_
      refine (ih (fun a' inside => each a' (.tail _ inside)) _).mono fun kept later => ?_
      obtain ⟨subset, chosen, all⟩ := later
      cases b with
      | true =>
        refine ⟨fun x inside => subset (.tail _ inside), fun x inside => ?_, fun x inside => ?_⟩
        · rcases chosen x inside with old | ⟨new, good⟩
          · rcases mem_cons.1 old with rfl | old
            · exact .inr ⟨.head _, answer⟩
            · exact .inl old
          · exact .inr ⟨.tail _ new, good⟩
        · rcases mem_cons.1 inside with rfl | inside
          · exact .inl (subset (.head _))
          · exact all x inside
      | false =>
        refine ⟨subset, fun x inside => ?_, fun x inside => ?_⟩
        · exact (chosen x inside).imp id fun new => ⟨.tail _ new.1, new.2⟩
        · rcases mem_cons.1 inside with rfl | inside
          · exact .inr answer
          · exact all x inside
  rw [List.filterM]
  refine (step []).bind fun kept ends => runs_pure ?_
  obtain ⟨-, chosen, all⟩ := ends
  refine ⟨fun a inside => ?_, fun a inside => (all a inside).imp (by simp) id⟩
  exact (chosen a (by simpa using inside)).resolve_left (by simp)

/-- A loop keeps what its body keeps. -/
lemma runs_forIn {init : β} {f : α → β → EStateM ε σ (ForInStep β)}
    (each : ∀ a ∈ l, ∀ b, Runs E I (f a b) fun _ => True) : Runs E I (forIn l init f) fun _ => True := by
  induction l generalizing init with
  | nil => exact runs_pure trivial
  | cons a rest ih =>
    rw [forIn_cons]
    refine (each a (.head _) init).bind fun next _ => ?_
    cases next with
    | done => exact runs_pure trivial
    | yield => exact ih fun a' inside => each a' (.tail _ inside)

end runs

end Missive
