import Mathlib.Data.List.Basic

/-!
# Chunked sources

A source delivers a stream of elements in segments of its own choosing and may
fail at any read. A read of at most `n` elements meets the first event: a
segment that fits is taken whole, a longer one is cut and its rest waits for
the next read; a read of none waits for nothing. Nothing is assumed about the
elements or the failures.
-/

namespace Chunked

variable {α ε : Type}

inductive Event (α ε : Type) where
  | data (bs : List α)
  | fail (e : ε)
  deriving DecidableEq, Repr

def arriving : List (Event α ε) → List α
  | [] => []
  | .data bs :: es => bs ++ arriving es
  | .fail _ :: es => arriving es

theorem arriving_append (es fs : List (Event α ε)) :
    arriving (es ++ fs) = arriving es ++ arriving fs := by
  induction es with
  | nil => rfl
  | cons e es ih =>
    cases e with
    | data bs => simp only [List.cons_append, arriving, ih, List.append_assoc]
    | fail e => simp only [List.cons_append, arriving, ih]

/-- Termination measure of read loops: a read that delivers something lowers it. -/
def budget : List (Event α ε) → ℕ
  | [] => 0
  | .data bs :: es => bs.length + 1 + budget es
  | .fail _ :: es => 1 + budget es

/-- The read that takes the first event there is; `none` while nothing has happened yet. -/
def next (n : ℕ) : List (Event α ε) → Option (Except ε (List α) × List (Event α ε))
  | [] => none
  | .fail e :: es => some (.error e, es)
  | .data bs :: es =>
    if bs.length ≤ n then some (.ok bs, es)
    else some (.ok (bs.take n), .data (bs.drop n) :: es)

/-- One read of at most `n` elements. -/
def read (n : ℕ) (es : List (Event α ε)) : Option (Except ε (List α) × List (Event α ε)) :=
  if n = 0 then some (.ok [], es) else next n es

theorem read_pos {n : ℕ} (hn : 0 < n) (es : List (Event α ε)) : read n es = next n es :=
  if_neg (Nat.ne_of_gt hn)

/- A read brings nothing and leaves everything, or it takes the first event. -/
theorem read_cases {n : ℕ} {es es' : List (Event α ε)} {r : Except ε (List α)}
    (h : read n es = some (r, es')) :
    (n = 0 ∧ r = .ok [] ∧ es' = es) ∨ next n es = some (r, es') := by
  unfold read at h
  split at h
  · cases h
    exact .inl ⟨‹_›, rfl, rfl⟩
  · exact .inr h

theorem read_next {n : ℕ} {es es' : List (Event α ε)} {bs : List α} (hbs : bs ≠ [])
    (h : read n es = some (.ok bs, es')) : next n es = some (.ok bs, es') := by
  rcases read_cases h with ⟨-, hnil, -⟩ | hnext
  · cases hnil
    exact absurd rfl hbs
  · exact hnext

theorem read_ok {n : ℕ} {es es' : List (Event α ε)} {bs : List α}
    (h : read n es = some (.ok bs, es')) :
    bs.length ≤ n ∧ arriving es = bs ++ arriving es' ∧ (bs ≠ [] → budget es' < budget es) := by
  rcases read_cases h with ⟨-, hnil, rfl⟩ | h
  · cases hnil
    exact ⟨Nat.zero_le n, rfl, fun hne => absurd rfl hne⟩
  cases es with
  | nil => simp [next] at h
  | cons e es =>
    cases e with
    | fail e => simp [next] at h
    | data xs =>
      simp only [next] at h
      split at h
      · rename_i hlen
        cases h
        exact ⟨hlen, rfl, fun _ => by simp only [budget]; omega⟩
      · rename_i hlen
        cases h
        refine ⟨List.length_take_le .., ?_, fun hne => ?_⟩
        · simp only [arriving, ← List.append_assoc, List.take_append_drop]
        · have hn : n ≠ 0 := by
            intro h0
            exact hne (by rw [h0]; rfl)
          simp only [budget, List.length_drop]
          omega

theorem read_error {n : ℕ} {es es' : List (Event α ε)} {e : ε}
    (h : read n es = some (.error e, es')) : es = .fail e :: es' := by
  rcases read_cases h with ⟨-, hnil, -⟩ | h
  · cases hnil
  cases es with
  | nil => simp [next] at h
  | cons x es =>
    cases x with
    | fail x => cases h; rfl
    | data xs =>
      simp only [next] at h
      split at h <;> cases h

theorem read_none {n : ℕ} {es : List (Event α ε)} (h : read n es = none) : es = [] := by
  unfold read at h
  split at h
  · cases h
  cases es with
  | nil => rfl
  | cons e es =>
    cases e with
    | fail e => cases h
    | data bs =>
      simp only [next] at h
      split at h <;> cases h

def Steady (es : List (Event α ε)) : Prop := ∀ e ∈ es, ∃ bs, bs ≠ [] ∧ e = .data bs

theorem steady_nil : Steady ([] : List (Event α ε)) := by
  intro e he
  cases he

/- A steady source with something left delivers at least one element to every
read that asks for one, and stays steady. -/
theorem read_steady {n : ℕ} {es : List (Event α ε)} (hs : Steady es) (hn : 0 < n)
    (hne : arriving es ≠ []) :
    ∃ bs es', read n es = some (.ok bs, es') ∧ bs ≠ [] ∧ Steady es' := by
  rw [read_pos hn]
  cases es with
  | nil => exact absurd rfl hne
  | cons e es =>
    obtain ⟨xs, hxs, rfl⟩ := hs e (List.mem_cons_self ..)
    have htail : Steady es := fun x hx => hs x (List.mem_cons_of_mem _ hx)
    by_cases hlen : xs.length ≤ n
    · exact ⟨xs, es, by simp [next, hlen], hxs, htail⟩
    · refine ⟨xs.take n, .data (xs.drop n) :: es, by simp [next, hlen], ?_, ?_⟩
      · intro h
        rcases List.take_eq_nil_iff.mp h with h | h
        · omega
        · exact hxs h
      · intro x hx
        rcases List.mem_cons.mp hx with rfl | hx
        · refine ⟨xs.drop n, ?_, rfl⟩
          intro h
          have := List.drop_eq_nil_iff.mp h
          omega
        · exact htail x hx

/-- What a reader gets that stops at the first failure or empty read. -/
def beforeEnd : List (Event α ε) → List α
  | [] => []
  | .fail _ :: _ => []
  | .data [] :: _ => []
  | .data (b :: bs) :: es => b :: bs ++ beforeEnd es

theorem beforeEnd_data {bs : List α} (h : bs ≠ []) (es : List (Event α ε)) :
    beforeEnd (.data bs :: es) = bs ++ beforeEnd es := by
  cases bs with
  | nil => exact absurd rfl h
  | cons b bs => rfl

theorem read_beforeEnd {n : ℕ} {es es' : List (Event α ε)} {bs : List α} (hbs : bs ≠ [])
    (h : read n es = some (.ok bs, es')) : beforeEnd es = bs ++ beforeEnd es' := by
  have h := read_next hbs h
  cases es with
  | nil => simp [next] at h
  | cons e es =>
    cases e with
    | fail e => simp [next] at h
    | data xs =>
      simp only [next] at h
      split at h
      · cases h
        exact beforeEnd_data hbs _
      · rename_i hlen
        cases h
        have hdrop : xs.drop n ≠ [] := fun h => hlen (List.drop_eq_nil_iff.mp h)
        have hxs : xs ≠ [] := fun h => hlen (by simp [h])
        rw [beforeEnd_data hxs, beforeEnd_data hdrop, ← List.append_assoc, List.take_append_drop]

theorem read_end {n : ℕ} (hn : 0 < n) {es es' : List (Event α ε)}
    (h : (∃ e, read n es = some (.error e, es')) ∨ read n es = some (.ok [], es')) :
    beforeEnd es = [] := by
  rw [read_pos hn] at h
  cases es with
  | nil => rfl
  | cons e es =>
    cases e with
    | fail e => rfl
    | data xs =>
      simp only [next] at h
      split at h
      · rcases h with ⟨e, h⟩ | h
        · cases h
        · cases h
          rfl
      · rename_i hlen
        rcases h with ⟨e, h⟩ | h
        · cases h
        · simp only [Option.some.injEq, Prod.mk.injEq, Except.ok.injEq] at h
          rcases List.take_eq_nil_iff.mp h.1 with h | h
          · omega
          · rw [h]
            rfl

/- A source that still has something before its end gives some of it to every read. -/
theorem read_more {n : ℕ} (hn : 0 < n) {es : List (Event α ε)} (h : beforeEnd es ≠ []) :
    ∃ bs es', read n es = some (.ok bs, es') ∧ bs ≠ [] := by
  cases hr : read n es with
  | none =>
    rw [read_none hr] at h
    exact absurd rfl h
  | some p =>
    obtain ⟨r, es'⟩ := p
    cases r with
    | error e => exact absurd (read_end hn (.inl ⟨e, hr⟩)) h
    | ok bs =>
      exact ⟨bs, es', rfl, fun hbs => h (read_end hn (.inr (hbs ▸ hr)))⟩

theorem beforeEnd_steady {es : List (Event α ε)} (h : Steady es) : beforeEnd es = arriving es := by
  induction es with
  | nil => rfl
  | cons e es ih =>
    obtain ⟨bs, hbs, rfl⟩ := h e (List.mem_cons_self ..)
    rw [beforeEnd_data hbs, arriving, ih fun x hx => h x (List.mem_cons_of_mem _ hx)]

/-- Some read fails or brings nothing. -/
def Ends : List (Event α ε) → Prop
  | [] => False
  | .fail _ :: _ => True
  | .data bs :: es => bs = [] ∨ Ends es

theorem ends_data {bs : List α} (h : bs ≠ []) (es : List (Event α ε)) :
    Ends (.data bs :: es) ↔ Ends es := by
  rw [Ends, or_iff_right h]

theorem ends_of_beforeEnd {es : List (Event α ε)} (h : beforeEnd es = []) (hne : es ≠ []) :
    Ends es := by
  cases es with
  | nil => exact absurd rfl hne
  | cons e es =>
    cases e with
    | fail e => trivial
    | data bs =>
      cases bs with
      | nil => exact .inl rfl
      | cons b bs => cases h

/- A read that brings something leaves the end of the source where it is. -/
theorem ends_read {n : ℕ} {es es' : List (Event α ε)} {bs : List α} (hbs : bs ≠ [])
    (h : read n es = some (.ok bs, es')) : Ends es' ↔ Ends es := by
  have h := read_next hbs h
  cases es with
  | nil => cases h
  | cons e es =>
    cases e with
    | fail e => cases h
    | data xs =>
      simp only [next] at h
      split at h
      · cases h
        exact (ends_data hbs _).symm
      · rename_i hlen
        cases h
        have hdrop : xs.drop n ≠ [] := fun h => hlen (List.drop_eq_nil_iff.mp h)
        have hxs : xs ≠ [] := fun h => hlen (by simp [h])
        rw [ends_data hdrop, ends_data hxs]

/-- Every read brings something, until one fails with an `e` of `P`. -/
def FailsAs (P : ε → Prop) : List (Event α ε) → Prop
  | [] => False
  | .fail e :: _ => P e
  | .data bs :: es => bs ≠ [] ∧ FailsAs P es

instance decidableFailsAs (P : ε → Prop) [DecidablePred P] :
    (es : List (Event α ε)) → Decidable (FailsAs P es)
  | [] => .isFalse id
  | .fail e :: _ => inferInstanceAs (Decidable (P e))
  | .data [] :: _ => .isFalse fun h => h.1 rfl
  | .data (b :: bs) :: es =>
    haveI := decidableFailsAs P es
    decidable_of_iff (FailsAs P es) ⟨fun h => ⟨List.cons_ne_nil b bs, h⟩, And.right⟩

theorem read_failsAs {n : ℕ} (hn : 0 < n) {P : ε → Prop} {es : List (Event α ε)}
    (h : FailsAs P es) :
    (∃ e es', read n es = some (.error e, es') ∧ P e) ∨
      ∃ bs es', read n es = some (.ok bs, es') ∧ bs ≠ [] ∧ FailsAs P es' := by
  rw [read_pos hn]
  cases es with
  | nil => exact absurd h id
  | cons e es =>
    cases e with
    | fail e => exact .inl ⟨e, es, rfl, h⟩
    | data xs =>
      obtain ⟨hxs, hes⟩ := h
      refine .inr ?_
      by_cases hlen : xs.length ≤ n
      · exact ⟨xs, es, if_pos hlen, hxs, hes⟩
      · refine ⟨xs.take n, .data (xs.drop n) :: es, if_neg hlen, fun hnil => ?_,
          fun hnil => ?_, hes⟩
        · rcases List.take_eq_nil_iff.mp hnil with hzero | hnone
          · omega
          · exact hxs hnone
        · exact hlen (List.drop_eq_nil_iff.mp hnil)

/-! ### Where reads end -/

/-- Reads of at most `n` elements, one after the other, bring exactly the first `k`. -/
def Boundary (n : ℕ) : List (Event α ε) → ℕ → Prop
  | [], k => k = 0
  | .fail _ :: _, k => k = 0
  | .data bs :: es, k => if k < bs.length then n ∣ k else Boundary n es (k - bs.length)

instance decidableBoundary (n : ℕ) : (es : List (Event α ε)) → (k : ℕ) → Decidable (Boundary n es k)
  | [], k => inferInstanceAs (Decidable (k = 0))
  | .fail _ :: _, k => inferInstanceAs (Decidable (k = 0))
  | .data bs :: es, k =>
    haveI := decidableBoundary n es (k - bs.length)
    inferInstanceAs (Decidable (if k < bs.length then n ∣ k else Boundary n es (k - bs.length)))

theorem boundary_zero (n : ℕ) (es : List (Event α ε)) : Boundary n es 0 := by
  induction es with
  | nil => rfl
  | cons e es ih =>
    cases e with
    | fail e => rfl
    | data bs =>
      rw [Boundary]
      split
      · exact Nat.dvd_zero n
      · rwa [Nat.zero_sub]

/- Behind the first read the boundaries are those of what it left. -/
theorem boundary_read {n k : ℕ} {es es' : List (Event α ε)} {bs : List α} (hk : 0 < k)
    (h : read n es = some (.ok bs, es')) :
    Boundary n es k ↔ bs.length ≤ k ∧ Boundary n es' (k - bs.length) := by
  rcases read_cases h with ⟨-, hnil, rfl⟩ | h
  · cases hnil
    exact (and_iff_right (Nat.zero_le k)).symm
  cases es with
  | nil => cases h
  | cons e es =>
    cases e with
    | fail e => cases h
    | data xs =>
      simp only [next] at h
      split at h
      · rename_i hlen
        cases h
        rw [Boundary]
        split
        · rename_i hlt
          refine ⟨fun hdvd => ?_, fun hle => absurd hle.1 (Nat.not_le_of_lt hlt)⟩
          have := Nat.le_of_dvd hk hdvd
          omega
        · rename_i hle
          exact ⟨fun hb => ⟨Nat.le_of_not_lt hle, hb⟩, And.right⟩
      · rename_i hlen
        cases h
        have htake : (xs.take n).length = n := by
          rw [List.length_take]
          omega
        rw [htake, Boundary, Boundary, List.length_drop]
        by_cases hlt : k < xs.length
        · rw [if_pos hlt]
          refine ⟨fun hdvd => ?_, fun ⟨hle, hrest⟩ => ?_⟩
          · have hle := Nat.le_of_dvd hk hdvd
            rw [if_pos (by omega)]
            exact ⟨hle, Nat.dvd_sub hdvd (Nat.dvd_refl n)⟩
          · rw [if_pos (by omega)] at hrest
            have := Nat.dvd_add hrest (Nat.dvd_refl n)
            rwa [Nat.sub_add_cancel hle] at this
        · have hsub : k - n - (xs.length - n) = k - xs.length := by omega
          rw [if_neg hlt, if_neg (by omega), hsub]
          exact ⟨fun hb => ⟨by omega, hb⟩, And.right⟩

def ofChunks (cs : List (List α)) : List (Event α ε) := cs.map .data

theorem arriving_ofChunks (cs : List (List α)) :
    arriving (ofChunks cs : List (Event α ε)) = cs.flatten := by
  induction cs with
  | nil => rfl
  | cons c cs ih => simpa [ofChunks, arriving] using ih

theorem steady_ofChunks {cs : List (List α)} (h : ∀ c ∈ cs, c ≠ []) :
    Steady (ofChunks cs : List (Event α ε)) := by
  intro e he
  obtain ⟨c, hc, rfl⟩ := List.mem_map.mp he
  exact ⟨c, h c hc, rfl⟩

end Chunked
