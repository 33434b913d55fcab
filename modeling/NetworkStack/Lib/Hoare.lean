import Mathlib.Data.List.Basic

/-!
# Computations that may stop, and their triples

A computation runs on a state and either returns a value or stops with an exit;
the state it has reached stays in both cases. A triple says what holds of the
state after each kind of end. One rule for each way a computation is built.
-/

namespace Hoare

variable {σ τ ε γ α β : Type}

def Act (σ ε α : Type) := σ → Except ε α × σ

instance : Monad (Act σ ε) where
  pure a := fun s => (.ok a, s)
  bind m f := fun s =>
    match m s with
    | (.error e, t) => (.error e, t)
    | (.ok a, t) => f a t

def stop (e : ε) : Act σ ε α := fun s => (.error e, s)

/-- Exits that `catches` knows become values. -/
def attempt (catches : ε → Option γ) (m : Act σ ε α) : Act σ ε (Except γ α) := fun s =>
  match m s with
  | (.ok a, t) => (.ok (.ok a), t)
  | (.error e, t) =>
    match catches e with
    | some c => (.ok (.error c), t)
    | none => (.error e, t)

def zoom (get : τ → σ) (put : τ → σ → τ) (m : Act σ ε α) : Act τ ε α := fun t =>
  let (r, s) := m (get t)
  (r, put t s)

def Triple (P : σ → Prop) (m : Act σ ε α) (Q : α → σ → Prop) (E : ε → σ → Prop) : Prop :=
  ∀ s, P s → match m s with
    | (.ok a, t) => Q a t
    | (.error e, t) => E e t

variable {P P' : σ → Prop} {Q Q' : α → σ → Prop} {R : β → σ → Prop} {E E' : ε → σ → Prop}

theorem Triple.ok {m : Act σ ε α} {s t : σ} {a : α} (h : Triple P m Q E) (hs : P s)
    (hm : m s = (.ok a, t)) : Q a t := by
  have := h s hs
  rwa [hm] at this

theorem Triple.error {m : Act σ ε α} {s t : σ} {e : ε} (h : Triple P m Q E) (hs : P s)
    (hm : m s = (.error e, t)) : E e t := by
  have := h s hs
  rwa [hm] at this

theorem Triple.of_cases {m : Act σ ε α}
    (hok : ∀ s t a, P s → m s = (.ok a, t) → Q a t)
    (herr : ∀ s t e, P s → m s = (.error e, t) → E e t) : Triple P m Q E := by
  intro s hs
  cases hm : m s with
  | mk r t =>
    cases r with
    | ok a => exact hok s t a hs hm
    | error e => exact herr s t e hs hm

theorem Triple.pure {a : α} (h : ∀ s, P s → Q a s) : Triple P (pure a : Act σ ε α) Q E := h

theorem Triple.stop {e : ε} (h : ∀ s, P s → E e s) : Triple P (Hoare.stop e : Act σ ε α) Q E := h

theorem bind_ok {m : Act σ ε α} {f : α → Act σ ε β} {s t : σ} {a : α} (h : m s = (.ok a, t)) :
    (m >>= f) s = f a t := by
  simp only [bind, h]

theorem bind_error {m : Act σ ε α} {f : α → Act σ ε β} {s t : σ} {e : ε}
    (h : m s = (.error e, t)) : (m >>= f) s = (.error e, t) := by
  simp only [bind, h]

theorem bind_bind {m : Act σ ε α} {f : α → Act σ ε β} {g : β → Act σ ε γ} :
    (m >>= f) >>= g = m >>= fun a => f a >>= g := by
  funext s
  cases hm : m s with
  | mk r t =>
    cases r with
    | error e => rw [bind_error hm, bind_error (bind_error hm)]
    | ok a =>
      have hmf : (m >>= f) s = f a t := bind_ok hm
      rw [bind_ok hm]
      cases hf : f a t with
      | mk r u =>
        rw [hf] at hmf
        cases r with
        | error e => rw [bind_error hmf, bind_error hf]
        | ok b => rw [bind_ok hmf, bind_ok hf]

theorem bind_pure_eq {m : Act σ ε α} {f : α → β} {s t : σ} {r : Except ε α} (h : m s = (r, t)) :
    (do let a ← m; Pure.pure (f a)) s = (r.map f, t) := by
  cases r with
  | error e => exact bind_error h
  | ok a => exact bind_ok h

theorem bind_eq_ok {m : Act σ ε α} {f : α → Act σ ε β} {s u : σ} {b : β}
    (h : (m >>= f) s = (.ok b, u)) : ∃ a t, m s = (.ok a, t) ∧ f a t = (.ok b, u) := by
  cases hm : m s with
  | mk r t =>
    cases r with
    | ok a => exact ⟨a, t, rfl, (bind_ok hm).symm.trans h⟩
    | error e =>
      rw [bind_error hm] at h
      cases h

theorem discard_final {m : Act σ ε α} {b : β} (s : σ) :
    ((m >>= fun _ => pure b) s).2 = (m s).2 := by
  cases hm : m s with
  | mk r t =>
    cases r with
    | ok a => rw [bind_ok hm]; rfl
    | error e => rw [bind_error hm]

theorem Triple.bind {m : Act σ ε α} {f : α → Act σ ε β} (hm : Triple P m Q E)
    (hf : ∀ a, Triple (Q a) (f a) R E) : Triple P (m >>= f) R E := by
  intro s hs
  cases hms : m s with
  | mk r t =>
    cases r with
    | ok a =>
      rw [bind_ok hms]
      exact hf a t (hm.ok hs hms)
    | error e =>
      rw [bind_error hms]
      exact hm.error hs hms

theorem Triple.mono {m : Act σ ε α} (h : Triple P m Q E) (hP : ∀ s, P' s → P s)
    (hQ : ∀ a s, Q a s → Q' a s) (hE : ∀ e s, E e s → E' e s) : Triple P' m Q' E' :=
  .of_cases (fun _ _ a hs hm => hQ a _ (h.ok (hP _ hs) hm))
    (fun _ _ e hs hm => hE e _ (h.error (hP _ hs) hm))

theorem Triple.or {m : Act σ ε α} (h : Triple P m Q E) (h' : Triple P' m Q E) :
    Triple (fun s => P s ∨ P' s) m Q E :=
  fun s hs => hs.elim (h s) (h' s)

theorem Triple.ite {c : Prop} [Decidable c] {m n : Act σ ε α} (hm : c → Triple P m Q E)
    (hn : ¬c → Triple P n Q E) : Triple P (if c then m else n) Q E := by
  split
  · exact hm ‹_›
  · exact hn ‹_›

theorem Triple.attempt {catches : ε → Option γ} {m : Act σ ε α} (h : Triple P m Q E) :
    Triple P (Hoare.attempt catches m)
      (fun r s => match r with
        | .ok a => Q a s
        | .error c => ∃ e, catches e = some c ∧ E e s)
      (fun e s => catches e = none ∧ E e s) := by
  intro s hs
  have hm := h s hs
  unfold Hoare.attempt
  cases hms : m s with
  | mk r t =>
    rw [hms] at hm
    cases r with
    | ok a => exact hm
    | error e =>
      cases hc : catches e with
      | some c =>
        simp only [hc]
        exact ⟨e, hc, hm⟩
      | none =>
        simp only [hc]
        exact ⟨trivial, hm⟩

theorem Triple.zoom {get : τ → σ} {put : τ → σ → τ} (hget : ∀ t s, get (put t s) = s)
    {m : Act σ ε α} (h : Triple P m Q E) :
    Triple (fun t => P (get t)) (Hoare.zoom get put m) (fun a t => Q a (get t))
      (fun e t => E e (get t)) := by
  intro t ht
  have hm := h (get t) ht
  unfold Hoare.zoom
  cases hms : m (get t) with
  | mk r s =>
    rw [hms] at hm
    cases r with
    | ok a => simpa only [hget] using hm
    | error e => simpa only [hget] using hm

/-! ### Invariants -/

/-- However the computation ends, the invariant still holds. -/
def Keeps (I : σ → Prop) (m : Act σ ε α) : Prop := Triple I m (fun _ => I) fun _ => I

variable {I : σ → Prop}

theorem Triple.final {m : Act σ ε α} {s : σ} (h : Triple P m (fun _ => I) fun _ => I) (hs : P s) :
    I (m s).2 := by
  cases hm : m s with
  | mk r t =>
    cases r with
    | ok a => exact h.ok hs hm
    | error e => exact h.error hs hm

theorem keeps_iff {m : Act σ ε α} : Keeps I m ↔ ∀ s, I s → I (m s).2 := by
  refine ⟨fun h s hs => h.final hs, fun h => .of_cases ?_ ?_⟩
  · intro s t a hs hm
    have := h s hs
    rwa [hm] at this
  · intro s t e hs hm
    have := h s hs
    rwa [hm] at this

theorem keeps_pure (a : α) : Keeps I (pure a : Act σ ε α) := .pure fun _ h => h

theorem keeps_stop (e : ε) : Keeps I (stop e : Act σ ε α) := .stop fun _ h => h

theorem Keeps.bind {m : Act σ ε α} {f : α → Act σ ε β} (hm : Keeps I m) (hf : ∀ a, Keeps I (f a)) :
    Keeps I (m >>= f) :=
  Triple.bind hm hf

theorem Keeps.ite {c : Prop} [Decidable c] {m n : Act σ ε α} (hm : Keeps I m) (hn : Keeps I n) :
    Keeps I (if c then m else n) :=
  Triple.ite (fun _ => hm) fun _ => hn

theorem Keeps.attempt {catches : ε → Option γ} {m : Act σ ε α} (hm : Keeps I m) :
    Keeps I (Hoare.attempt catches m) := by
  refine Triple.mono (Triple.attempt hm) (fun _ h => h) ?_ fun _ _ h => h.2
  intro r s hr
  cases r with
  | ok a => exact hr
  | error c => exact hr.choose_spec.2

end Hoare
