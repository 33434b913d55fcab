import Mathlib.Data.List.Basic

/-!
# Streams of code words

A sequence of values is sent as the concatenation of their code words. When no
code word continues another one, a stream of whole words is read back in only
one way, and a stream that was cut inside a word gives no further value.
-/

namespace Framing

variable {α β : Type} {ok : β → Prop} {enc : β → List α}

def PrefixCode (ok : β → Prop) (enc : β → List α) : Prop :=
  ∀ a b x y, ok a → ok b → enc a ++ x = enc b ++ y → a = b ∧ x = y

def Stub (ok : β → Prop) (enc : β → List α) (tail : List α) : Prop :=
  ∃ b rest, ok b ∧ rest ≠ [] ∧ enc b = tail ++ rest

theorem stub_nil {b : β} (hb : ok b) (hne : enc b ≠ []) : Stub ok enc [] :=
  ⟨b, enc b, hb, hne, rfl⟩

/- A word found at the front of a stream of words is the first of them, and what
follows it is the stream of the others. -/
theorem PrefixCode.front (hp : PrefixCode ok enc) {a : β} {bs : List β} {x tail : List α}
    (ha : ok a) (hbs : ∀ b ∈ bs, ok b) (ht : Stub ok enc tail)
    (h : enc a ++ x = bs.flatMap enc ++ tail) :
    ∃ bs', bs = a :: bs' ∧ x = bs'.flatMap enc ++ tail := by
  cases bs with
  | nil =>
    -- the whole word `a` would lie inside the cut one
    obtain ⟨b, rest, hb, hne, henc⟩ := ht
    have htail : tail = enc a ++ x := by simpa using h.symm
    rw [htail, List.append_assoc] at henc
    have heq := (hp b a [] (x ++ rest) hb ha (by simpa using henc)).2
    have hrest : rest = [] := (List.append_eq_nil_iff.mp heq.symm).2
    exact absurd hrest hne
  | cons b bs =>
    rw [List.flatMap_cons, List.append_assoc] at h
    obtain ⟨rfl, hx⟩ := hp a b _ _ ha (hbs b (List.mem_cons_self ..)) h
    exact ⟨bs, rfl, hx⟩

end Framing
