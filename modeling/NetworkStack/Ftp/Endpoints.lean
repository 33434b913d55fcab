import NetworkStack.Ftp.PassivePort

/-!
# The endpoint a passive reply names (protocol/FtpFileTransfer.cpp)

`parsePasvResponse` reads back every endpoint that is written as six numbers. Its loop
stops at the sixth number and never looks at what stands behind it.
-/

namespace NetworkStack.Ftp

/-! ### Six numbers and no more -/

/-- What stands between the first opening parenthesis and the next closing one. -/
def PasvParams (response params : Bytes) : Prop :=
  ∃ before behind, response = before ++ 40 :: (params ++ 41 :: behind) ∧
    40 ∉ before ∧ 41 ∉ params

theorem pasvParams_unique {response params params' : Bytes} (h : PasvParams response params)
    (h' : PasvParams response params') : params = params' := by
  obtain ⟨before, behind, rfl, hbefore, hparams⟩ := h
  obtain ⟨before', behind', heq, hbefore', hparams'⟩ := h'
  obtain ⟨-, heq⟩ := append_cons_inj hbefore hbefore' heq
  exact (append_cons_inj hparams hparams' heq).1

theorem namesEndpoint_iff (response : Bytes) :
    NamesEndpoint response ↔ ∃ params, PasvParams response params ∧ Octets 6 params := by
  constructor
  · rintro ⟨before, params, behind, heq, hbefore, hparams, hoctets⟩
    exact ⟨params, ⟨before, behind, heq, hbefore, hparams⟩, hoctets⟩
  · rintro ⟨params, ⟨before, behind, heq, hbefore, hparams⟩, hoctets⟩
    exact ⟨before, params, behind, heq, hbefore, hparams, hoctets⟩

/-- Six octets with commas between them are all there is. -/
def ExactlySix (params : Bytes) : Prop :=
  (params.splitOn comma).length = 6 ∧ ∀ part ∈ params.splitOn comma, IsOctet part

/-- A comma stands behind the sixth of six octets. -/
def Surplus (params : Bytes) : Prop := Octets 6 params ∧ 6 < (params.splitOn comma).length

instance (params : Bytes) : Decidable (ExactlySix params) := inferInstanceAs (Decidable (_ ∧ _))

instance (params : Bytes) : Decidable (Surplus params) := inferInstanceAs (Decidable (_ ∧ _))

theorem exactlySix_iff {params : Bytes} (h : Octets 6 params) :
    ExactlySix params ↔ ¬Surplus params := by
  obtain ⟨hlen, hall⟩ := h
  constructor
  · rintro ⟨hsix, -⟩ ⟨-, hmore⟩
    omega
  · intro hno
    have hsix : (params.splitOn comma).length = 6 := by
      by_contra hne
      exact hno ⟨⟨hlen, hall⟩, by omega⟩
    refine ⟨hsix, ?_⟩
    rwa [List.take_of_length_le hsix.le] at hall

/-- A reply is taken for an endpoint that does not name one exactly when its six octets are
followed by a comma, whatever comes then. -/
theorem parsePasvResponse_exact_iff (response : Bytes) :
    ((parsePasvResponse response).isSome = true →
        ∃ params, PasvParams response params ∧ ExactlySix params) ↔
      ¬∃ params, PasvParams response params ∧ Surplus params := by
  rw [parsePasvResponse_isSome, namesEndpoint_iff]
  constructor
  · rintro h ⟨params, hparams, hsurplus⟩
    obtain ⟨params', hparams', hsix⟩ := h ⟨params, hparams, hsurplus.1⟩
    obtain rfl := pasvParams_unique hparams hparams'
    exact (exactlySix_iff hsurplus.1).mp hsix hsurplus
  · rintro hno ⟨params, hparams, hoctets⟩
    refine ⟨params, hparams, (exactlySix_iff hoctets).mpr fun hsurplus => ?_⟩
    exact hno ⟨params, hparams, hsurplus⟩

/- A seventh number, and an empty text behind a seventh comma, are not looked at. -/
theorem parsePasvResponse_surplus :
    let seven := ascii "227 Entering Passive Mode (127,0,0,1,4,1,9)."
    (parsePasvResponse seven = some ⟨0x7F000001, 1025⟩ ∧
        ¬∃ params, PasvParams seven params ∧ ExactlySix params) ∧
      ¬∀ response, (parsePasvResponse response).isSome = true →
        ∃ params, PasvParams response params ∧ ExactlySix params := by
  intro seven
  have hparsed : parsePasvResponse seven = some ⟨0x7F000001, 1025⟩ := by decide
  have hparams : PasvParams seven (ascii "127,0,0,1,4,1,9") :=
    ⟨ascii "227 Entering Passive Mode ", ascii ".", by decide, by decide, by decide⟩
  have hno : ¬∃ params, PasvParams seven params ∧ ExactlySix params := by
    rintro ⟨params, hparams', hsix⟩
    obtain rfl := pasvParams_unique hparams hparams'
    exact absurd hsix (by decide)
  exact ⟨⟨hparsed, hno⟩, fun h => hno (h seven (by rw [hparsed]; rfl))⟩

/-! ### Reading back an endpoint -/

theorem parse_uint8_digits {spaces : Bytes} {n : ℕ} (hspaces : ∀ b ∈ spaces, isspace b = true)
    (hn : n ≤ 255) : parse_uint8 (spaces ++ Decimal.digits n) = .ok n := by
  have hall := isdigit_digits n
  have htake : (Decimal.digits n).takeWhile isdigit = Decimal.digits n :=
    List.takeWhile_eq_self_iff.mpr hall
  have hdrop : (Decimal.digits n).dropWhile isdigit = [] := List.dropWhile_eq_nil_iff.mpr hall
  have hvalue : decimal (Decimal.digits n) = n := Decimal.value_digits n
  unfold parse_uint8
  rw [dropWhile_isspace_digits hspaces hall]
  simp only [htake, hdrop, hvalue]
  rw [if_neg (Decimal.digits_ne_nil n), if_neg (by omega), if_neg (by simp), if_neg (by omega)]

/-- Numbers with white space in front of them and commas between them. -/
def pasvNumbers (numbers : List (Bytes × ℕ)) : Bytes :=
  [comma].intercalate (numbers.map fun (spaces, n) => spaces ++ Decimal.digits n)

/-- The white space is white space, and the numbers are octets. -/
def Written (numbers : List (Bytes × ℕ)) : Prop :=
  ∀ x ∈ numbers, (∀ b ∈ x.1, isspace b = true) ∧ x.2 ≤ 255

instance (numbers : List (Bytes × ℕ)) : Decidable (Written numbers) :=
  inferInstanceAs (Decidable (∀ x ∈ numbers, _))

/- A byte that is neither white space nor a digit nor a comma is in no such text. -/
theorem not_mem_number {spaces : Bytes} (n : ℕ) (mark : Byte)
    (hspaces : ∀ b ∈ spaces, isspace b = true) (hspace : isspace mark = false)
    (hdigit : isdigit mark = false) : mark ∉ spaces ++ Decimal.digits n := by
  intro hmem
  rcases List.mem_append.mp hmem with hmem | hmem
  · rw [hspaces mark hmem] at hspace
    cases hspace
  · rw [isdigit_digits n mark hmem] at hdigit
    cases hdigit

theorem not_mem_pasvNumbers {numbers : List (Bytes × ℕ)} {mark : Byte} (h : Written numbers)
    (hspace : isspace mark = false) (hdigit : isdigit mark = false) (hcomma : mark ≠ comma) :
    mark ∉ pasvNumbers numbers := by
  induction numbers with
  | nil => exact List.not_mem_nil
  | cons x numbers ih =>
    obtain ⟨hx, hnumbers⟩ := List.forall_mem_cons.mp h
    have hhead := not_mem_number x.2 mark hx.1 hspace hdigit
    cases numbers with
    | nil => simpa only [pasvNumbers, List.map_cons, List.map_nil, List.intercalate_singleton]
    | cons y numbers =>
      have htail := ih hnumbers
      simp only [pasvNumbers, List.map_cons, List.intercalate_cons_cons, List.mem_append,
        List.mem_singleton] at htail hhead ⊢
      rintro ((hmem | hmem) | hmem)
      · exact hhead hmem
      · exact hcomma hmem
      · exact htail hmem

theorem parseParts_last {part : Bytes} {n : ℕ} (room : ℕ) (hcomma : comma ∉ part)
    (hpart : parse_uint8 part = .ok n) : parseParts (room + 1) part = .ok [n] := by
  obtain ⟨htake, hdrop⟩ := Search.span_no_mark hcomma
  cases part with
  | nil => cases hpart
  | cons b part => rw [parseParts, htake, hpart, hdrop]

theorem parseParts_next {part : Bytes} {n : ℕ} (room : ℕ) (hcomma : comma ∉ part)
    (hpart : parse_uint8 part = .ok n) (rest : Bytes) :
    parseParts (room + 1) (part ++ comma :: rest) = (parseParts room rest).map (n :: ·) := by
  obtain ⟨htake, hdrop⟩ := Search.span_mark hcomma rest
  cases part with
  | nil => cases hpart
  | cons b part =>
    rw [List.cons_append] at htake hdrop ⊢
    rw [parseParts, htake, hpart, hdrop]

/- As many numbers as the loop has room for. -/
theorem parseParts_pasvNumbers (numbers : List (Bytes × ℕ)) (h : Written numbers) :
    parseParts numbers.length (pasvNumbers numbers) = .ok (numbers.map Prod.snd) := by
  induction numbers with
  | nil => rfl
  | cons x numbers ih =>
    obtain ⟨hx, hnumbers⟩ := List.forall_mem_cons.mp h
    have hcomma := not_mem_number x.2 comma hx.1 (by decide) (by decide)
    have hpart := parse_uint8_digits hx.1 hx.2
    cases numbers with
    | nil =>
      rw [pasvNumbers, List.map_cons, List.map_nil, List.intercalate_singleton]
      exact parseParts_last 0 hcomma hpart
    | cons y numbers =>
      have hrest := ih hnumbers
      rw [pasvNumbers, List.map_cons] at hrest
      rw [pasvNumbers, List.map_cons, List.map_cons, List.intercalate_cons_cons, List.length_cons,
        List.append_assoc, List.singleton_append, parseParts_next _ hcomma hpart, hrest]
      rfl

/-! ### The bits of an endpoint -/

/-- The six numbers a server writes for an endpoint. -/
def octetsOf (endpoint : Endpoint) : List ℕ :=
  [endpoint.address.toNat / 2 ^ 24, endpoint.address.toNat / 2 ^ 16 % 2 ^ 8,
    endpoint.address.toNat / 2 ^ 8 % 2 ^ 8, endpoint.address.toNat % 2 ^ 8,
    endpoint.port.toNat / 2 ^ 8, endpoint.port.toNat % 2 ^ 8]

/- Bits below those that are set are added. -/
theorem toNat_or_low {a b : UInt32} {k : ℕ} (ha : 2 ^ k ∣ a.toNat) (hb : b.toNat < 2 ^ k) :
    (a ||| b).toNat = a.toNat + b.toNat := by
  obtain ⟨high, hhigh⟩ := ha
  have hshift : a.toNat = high <<< k := by rw [hhigh, Nat.shiftLeft_eq, Nat.mul_comm]
  rw [UInt32.toNat_or, hshift, Nat.shiftLeft_add_eq_or_of_lt hb]

theorem toNat_octet {n : ℕ} (hn : n ≤ 255) : (UInt32.ofNat n).toNat = n :=
  UInt32.toNat_ofNat_of_lt' (by simp only [UInt32.size]; omega)

theorem toNat_shift_octet {n k : ℕ} (hn : n ≤ 255) (hk : k ≤ 24) :
    (UInt32.ofNat n <<< UInt32.ofNat k).toNat = n * 2 ^ k := by
  have hpow : n * 2 ^ k ≤ 255 * 2 ^ 24 := Nat.mul_le_mul hn (Nat.pow_le_pow_right (by omega) hk)
  rw [UInt32.toNat_shiftLeft, toNat_octet hn, toNat_octet (by omega : k ≤ 255),
    Nat.mod_eq_of_lt (by omega : k < 32), Nat.shiftLeft_eq]
  exact Nat.mod_eq_of_lt (by omega)

/- No bit of an octet is lost and none is set twice. -/
theorem endpointOf_octets {h1 h2 h3 h4 p1 p2 : ℕ}
    (h : ∀ n ∈ [h1, h2, h3, h4, p1, p2], n ≤ 255) :
    ∃ endpoint, endpointOf [h1, h2, h3, h4, p1, p2] = some endpoint ∧
      endpoint.address.toNat = h1 * 2 ^ 24 + h2 * 2 ^ 16 + h3 * 2 ^ 8 + h4 ∧
      endpoint.port.toNat = p1 * 2 ^ 8 + p2 := by
  simp only [List.forall_mem_cons] at h
  obtain ⟨hh1, hh2, hh3, hh4, hp1, hp2, -⟩ := h
  have h1' := toNat_shift_octet (k := 24) hh1 (by omega)
  have h2' := toNat_shift_octet (k := 16) hh2 (by omega)
  have h3' := toNat_shift_octet (k := 8) hh3 (by omega)
  have p1' := toNat_shift_octet (k := 8) hp1 (by omega)
  refine ⟨_, rfl, ?_, ?_⟩
  · show ((UInt32.ofNat h1 <<< UInt32.ofNat 24) ||| (UInt32.ofNat h2 <<< UInt32.ofNat 16)
      ||| (UInt32.ofNat h3 <<< UInt32.ofNat 8) ||| UInt32.ofNat h4).toNat = _
    have hab := toNat_or_low (k := 24) (by rw [h1']; exact Nat.dvd_mul_left ..)
      (by rw [h2']; omega)
    rw [h1', h2'] at hab
    have habc := toNat_or_low (k := 16) (by rw [hab]; omega) (by rw [h3']; omega)
    rw [hab, h3'] at habc
    rw [toNat_or_low (k := 8) (by rw [habc]; omega) (by rw [toNat_octet hh4]; omega), habc,
      toNat_octet hh4]
  · show ((UInt32.ofNat p1 <<< UInt32.ofNat 8) ||| UInt32.ofNat p2).toUInt16.toNat = _
    rw [UInt32.toNat_toUInt16, toNat_or_low (k := 8) (by rw [p1']; exact Nat.dvd_mul_left ..)
      (by rw [toNat_octet hp2]; omega), p1', toNat_octet hp2]
    exact Nat.mod_eq_of_lt (by omega)

theorem octetsOf_le (endpoint : Endpoint) : ∀ n ∈ octetsOf endpoint, n ≤ 255 := by
  have haddress := endpoint.address.toNat_lt
  have hport := endpoint.port.toNat_lt
  simp only [octetsOf, List.forall_mem_cons]
  exact ⟨by omega, by omega, by omega, by omega, by omega, by omega, List.forall_mem_nil _⟩

theorem endpointOf_octetsOf (endpoint : Endpoint) :
    endpointOf (octetsOf endpoint) = some endpoint := by
  obtain ⟨read, hread, haddress, hport⟩ := endpointOf_octets (octetsOf_le endpoint)
  rw [octetsOf, hread, Option.some.injEq, Endpoint.mk.injEq, ← UInt32.toNat_inj,
    ← UInt16.toNat_inj, haddress, hport]
  omega

/- Octets can be told from the endpoint they make. -/
theorem endpointOf_inj {parts parts' : List ℕ} (h : ∀ n ∈ parts, n ≤ 255)
    (h' : ∀ n ∈ parts', n ≤ 255) (hlen : parts.length = 6) (hlen' : parts'.length = 6)
    (heq : endpointOf parts = endpointOf parts') : parts = parts' := by
  match parts, hlen with
  | [h1, h2, h3, h4, p1, p2], _ =>
    match parts', hlen' with
    | [h1', h2', h3', h4', p1', p2'], _ =>
      obtain ⟨read, hread, haddress, hport⟩ := endpointOf_octets h
      obtain ⟨read', hread', haddress', hport'⟩ := endpointOf_octets h'
      rw [hread, hread', Option.some.injEq] at heq
      rw [← heq] at haddress' hport'
      simp only [List.forall_mem_cons] at h h'
      simp only [List.cons.injEq, and_true]
      refine ⟨?_, ?_, ?_, ?_, ?_, ?_⟩ <;> omega

/-! ### The round trip -/

/-- A reply with numbers in parentheses, white space in front of each. -/
def pasvReply (before behind : Bytes) (spaces : List Bytes) (numbers : List ℕ) : Bytes :=
  before ++ 40 :: (pasvNumbers (spaces.zip numbers) ++ 41 :: behind)

/-- Nothing before the parentheses opens them, and white space stands in front of the numbers. -/
def Surrounds (before : Bytes) (spaces : List Bytes) : Prop :=
  40 ∉ before ∧ spaces.length = 6 ∧ ∀ s ∈ spaces, ∀ b ∈ s, isspace b = true

instance (before : Bytes) (spaces : List Bytes) : Decidable (Surrounds before spaces) :=
  inferInstanceAs (Decidable (_ ∧ _ ∧ _))

theorem parsePasvResponse_pasvReply {before : Bytes} {spaces : List Bytes} {numbers : List ℕ}
    (behind : Bytes) (h : Surrounds before spaces) (hnumbers : numbers.length = 6)
    (hoctets : ∀ n ∈ numbers, n ≤ 255) :
    parsePasvResponse (pasvReply before behind spaces numbers) = endpointOf numbers := by
  obtain ⟨hbefore, hlen, hspaces⟩ := h
  have hwritten : Written (spaces.zip numbers) := fun x hx =>
    ⟨hspaces _ (List.of_mem_zip hx).1, hoctets _ (List.of_mem_zip hx).2⟩
  have hno : 41 ∉ pasvNumbers (spaces.zip numbers) :=
    not_mem_pasvNumbers hwritten (by decide) (by decide) (by decide)
  have hparts := parseParts_pasvNumbers _ hwritten
  rw [List.length_zip, hlen, hnumbers, Nat.min_self,
    List.map_snd_zip (by rw [hlen, hnumbers])] at hparts
  unfold parsePasvResponse pasvReply
  rw [(Search.span_mark hbefore _).2]
  simp only
  rw [if_neg (by simp), Search.takeWhile_mark hno, hparts]

/-- Every endpoint comes back from its six numbers, and no reply with six other numbers is
read as that endpoint. -/
theorem parsePasvResponse_octetsOf (endpoint : Endpoint) (before behind : Bytes)
    (spaces : List Bytes) (h : Surrounds before spaces) :
    parsePasvResponse (pasvReply before behind spaces (octetsOf endpoint)) = some endpoint ∧
      ∀ (before' behind' : Bytes) (spaces' : List Bytes) (numbers : List ℕ),
        Surrounds before' spaces' → numbers.length = 6 → (∀ n ∈ numbers, n ≤ 255) →
        parsePasvResponse (pasvReply before' behind' spaces' numbers) = some endpoint →
        numbers = octetsOf endpoint := by
  refine ⟨?_, fun before' behind' spaces' numbers h' hnumbers hoctets hread => ?_⟩
  · rw [parsePasvResponse_pasvReply behind h rfl (octetsOf_le endpoint)]
    exact endpointOf_octetsOf endpoint
  · rw [parsePasvResponse_pasvReply behind' h' hnumbers hoctets,
      ← endpointOf_octetsOf endpoint] at hread
    exact endpointOf_inj hoctets (octetsOf_le endpoint) hnumbers rfl hread

theorem parsePasvResponse_octetsOf_spaced :
    let endpoint : Endpoint := ⟨0xC0A80001, 65535⟩
    let spaces := [[], ascii " ", [9], [], ascii "  ", []]
    Surrounds (ascii "227 ok ") spaces ∧ octetsOf endpoint = [192, 168, 0, 1, 255, 255] ∧
      parsePasvResponse (pasvReply (ascii "227 ok ") (ascii " (8)") spaces (octetsOf endpoint))
        = some endpoint := by
  intro endpoint spaces
  have hsurrounds : Surrounds (ascii "227 ok ") spaces := by decide
  exact ⟨hsurrounds, by decide, (parsePasvResponse_octetsOf endpoint (ascii "227 ok ")
    (ascii " (8)") spaces hsurrounds).1⟩

end NetworkStack.Ftp
