import Mathlib.Data.Nat.Digits.Lemmas
import Mathlib.Tactic.Ring
import Mathlib.Tactic.Linarith

/-!
# Numbers in DER

The distinguished encoding of a number is its shortest one: two's complement, the most
significant byte first, without a byte that only repeats the sign, behind a length that
is a byte of its own as long as it is below 128. A decoder that takes nothing else reads a
number from one text only.
-/

namespace Der

/-! ## Big-endian numbers -/

/-- The number that some bytes make, the most significant first. -/
def value (bs : List UInt8) : ℕ := Nat.ofDigits 256 (bs.reverse.map UInt8.toNat)

@[simp] theorem value_nil : value [] = 0 := rfl

theorem value_cons (b : UInt8) (bs : List UInt8) :
    value (b :: bs) = b.toNat * 256 ^ bs.length + value bs := by
  rw [value, value, List.reverse_cons, List.map_append, Nat.ofDigits_append, List.length_map,
    List.length_reverse, List.map_singleton, Nat.ofDigits_singleton]
  ring

theorem value_lt (bs : List UInt8) : value bs < 256 ^ bs.length := by
  have hlt := Nat.ofDigits_lt_base_pow_length (b := 256) (l := bs.reverse.map UInt8.toNat)
    (by decide) (fun d hd => by
      obtain ⟨b, -, rfl⟩ := List.mem_map.mp hd
      exact b.toNat_lt)
  rwa [List.length_map, List.length_reverse] at hlt

/-- Zeros in front make no difference. -/
theorem value_zero_cons (bs : List UInt8) : value (0 :: bs) = value bs := by
  rw [value_cons]
  simp

/-- Bytes of one number and of one length are the same. -/
theorem eq_of_value_eq {as bs : List UInt8} (hlen : as.length = bs.length)
    (h : value as = value bs) : as = bs := by
  have hlt : ∀ cs : List UInt8, ∀ d ∈ cs.reverse.map UInt8.toNat, d < 256 := by
    intro cs d hd
    obtain ⟨b, -, rfl⟩ := List.mem_map.mp hd
    exact b.toNat_lt
  have hdigits := Nat.ofDigits_inj_of_len_eq (by decide : 1 < 256) (by simp [hlen]) (hlt as)
    (hlt bs) h
  have hmap := List.map_injective_iff.mpr (fun _ _ hab => UInt8.toNat_inj.mp hab) hdigits
  exact List.reverse_injective hmap

/-! ## Integers

Two's complement with the fewest bytes. That there is only one such text is
what a strict decoder relies on. -/

/-- The number that some bytes make in two's complement. -/
def signed (bs : List UInt8) : ℤ :=
  if 128 ≤ (bs.headD 0).toNat then value bs - 256 ^ bs.length else value bs

/-- What a byte counts for in front. -/
def lead (b : UInt8) : ℤ := if 128 ≤ b.toNat then b.toNat - 256 else b.toNat

theorem lead_bounds (b : UInt8) : -128 ≤ lead b ∧ lead b < 128 := by
  have := b.toNat_lt
  unfold lead
  split <;> omega

theorem signed_cons (b : UInt8) (bs : List UInt8) :
    signed (b :: bs) = lead b * 256 ^ bs.length + value bs := by
  unfold signed lead
  rw [List.headD_cons, value_cons, List.length_cons, pow_succ]
  split
  · push_cast
    ring
  · push_cast
    ring

theorem signed_of_lt {bs : List UInt8} (h : (bs.headD 0).toNat < 128) : signed bs = value bs :=
  if_neg (not_le.mpr h)

/-- The numbers of so many bytes. -/
theorem signed_bounds (b : UInt8) (bs : List UInt8) :
    -(128 * 256 ^ bs.length) ≤ signed (b :: bs) ∧ signed (b :: bs) < 128 * 256 ^ bs.length := by
  have hvalue : (value bs : ℤ) < 256 ^ bs.length := by exact_mod_cast value_lt bs
  have hnonneg : (0 : ℤ) ≤ value bs := Int.natCast_nonneg _
  obtain ⟨hlow, hhigh⟩ := lead_bounds b
  rw [signed_cons]
  constructor <;> nlinarith

/-- **No byte in front only repeats the sign**, and there is one. -/
def minimal : List UInt8 → Bool
  | [] => false
  | [_] => true
  | a :: b :: _ =>
    decide (¬(a.toNat = 0 ∧ b.toNat < 128) ∧ ¬(a.toNat = 255 ∧ 128 ≤ b.toNat))

/-- Then fewer bytes would not do. -/
theorem signed_large {a b : UInt8} {bs : List UInt8} (h : minimal (a :: b :: bs) = true) :
    signed (a :: b :: bs) < -(128 * 256 ^ bs.length)
      ∨ 128 * 256 ^ bs.length ≤ signed (a :: b :: bs) := by
  have hvalue : (value bs : ℤ) < 256 ^ bs.length := by exact_mod_cast value_lt bs
  have hnonneg : (0 : ℤ) ≤ value bs := Int.natCast_nonneg _
  have hsigned : signed (a :: b :: bs) = (lead a * 256 + b.toNat) * 256 ^ bs.length + value bs := by
    rw [signed_cons, value_cons, List.length_cons, pow_succ]
    push_cast
    ring
  have hlead : lead a * 256 + b.toNat ≤ -129 ∨ 128 ≤ lead a * 256 + b.toNat := by
    have := a.toNat_lt
    have := b.toNat_lt
    have := of_decide_eq_true h
    unfold lead
    split <;> omega
  rw [hsigned]
  obtain hlow | hhigh := hlead
  · left
    nlinarith
  · right
    nlinarith

/-- **A minimal encoding is the shortest.** -/
theorem length_le_of_minimal {as bs : List UInt8} (ha : minimal as = true) (hb : bs ≠ [])
    (h : signed bs = signed as) : as.length ≤ bs.length := by
  obtain ⟨b, bs, rfl⟩ := List.exists_cons_of_ne_nil hb
  match as, ha with
  | [_], _ => simp
  | a :: a' :: as, ha =>
    by_contra hlong
    have hle : bs.length ≤ as.length := by
      simp only [List.length_cons] at hlong
      omega
    have hpow : (256 : ℤ) ^ bs.length ≤ 256 ^ as.length := by
      exact_mod_cast Nat.pow_le_pow_right (by decide) hle
    obtain ⟨hlow, hhigh⟩ := signed_bounds b bs
    obtain hout | hout := signed_large ha
    · omega
    · omega

/-- **A number has one minimal encoding.** -/
theorem eq_of_minimal {as bs : List UInt8} (ha : minimal as = true) (hb : minimal bs = true)
    (h : signed as = signed bs) : as = bs := by
  have hne : ∀ cs : List UInt8, minimal cs = true → cs ≠ [] := by
    rintro cs hcs rfl
    exact absurd hcs (by simp [minimal])
  have hlen : as.length = bs.length :=
    (length_le_of_minimal ha (hne bs hb) h.symm).antisymm
      (length_le_of_minimal hb (hne as ha) h)
  refine eq_of_value_eq hlen ?_
  have hmod : ∀ cs : List UInt8, (signed cs) % (256 ^ cs.length) = value cs := by
    intro cs
    have hlt : (value cs : ℤ) < 256 ^ cs.length := by exact_mod_cast value_lt cs
    unfold signed
    split
    · rw [Int.sub_emod_right, Int.emod_eq_of_lt (Int.natCast_nonneg _) hlt]
    · exact Int.emod_eq_of_lt (Int.natCast_nonneg _) hlt
  have hvalue := hmod as
  rw [h, hlen, hmod bs] at hvalue
  exact_mod_cast hvalue.symm

/-! ## Lengths -/

/-- The octets of a length. -/
def lengthOctets (n : ℕ) : List UInt8 :=
  if n < 128 then [UInt8.ofNat n]
  else
    let octets := (Nat.digits 256 n).reverse.map UInt8.ofNat
    UInt8.ofNat (128 + octets.length) :: octets

/-- The length that some bytes begin with, and what comes after it: below 128 it is a byte
of its own, and otherwise it is in as few bytes as it takes. -/
def readLength : List UInt8 → Option (ℕ × List UInt8)
  | [] => none
  | b :: rest =>
    if b.toNat < 128 then some (b.toNat, rest)
    else
      let count := b.toNat - 128
      let n := value (rest.take count)
      if count ≤ rest.length ∧ rest.headD 0 ≠ 0 ∧ 128 ≤ n then some (n, rest.drop count)
      else none

theorem readLength_short {n : ℕ} (h : n < 128) (rest : List UInt8) :
    readLength (UInt8.ofNat n :: rest) = some (n, rest) := by
  have hn : (UInt8.ofNat n).toNat = n := UInt8.toNat_ofNat_of_lt' (h.trans (by decide))
  rw [readLength, hn, if_pos h]

/-- The digits of a number are the bytes it was read from. -/
theorem digits_value {b : UInt8} {bs : List UInt8} (hb : b ≠ 0) :
    (Nat.digits 256 (value (b :: bs))).reverse.map UInt8.ofNat = b :: bs := by
  have hlt : ∀ d ∈ (b :: bs).reverse.map UInt8.toNat, d < 256 := by
    intro d hd
    obtain ⟨c, -, rfl⟩ := List.mem_map.mp hd
    exact c.toNat_lt
  have hlast : ∀ h : (b :: bs).reverse.map UInt8.toNat ≠ [],
      ((b :: bs).reverse.map UInt8.toNat).getLast h ≠ 0 := by
    intro h
    have hb' : b.toNat ≠ 0 := fun h0 => hb (UInt8.toNat_inj.mp h0)
    simpa using hb'
  rw [value, Nat.digits_ofDigits 256 (by decide) _ hlt hlast, ← List.map_reverse,
    List.reverse_reverse, List.map_map]
  exact (List.map_congr_left (fun c _ => UInt8.ofNat_toNat)).trans (List.map_id _)

/-- **A length is read from its octets only.** -/
theorem eq_of_readLength {bs rest : List UInt8} {n : ℕ} (h : readLength bs = some (n, rest)) :
    bs = lengthOctets n ++ rest := by
  match bs with
  | [] => cases h
  | b :: bs =>
    rw [readLength] at h
    split at h
    · next hshort =>
      cases h
      rw [lengthOctets, if_pos hshort, UInt8.ofNat_toNat]
      rfl
    · next hlong =>
      dsimp only at h
      split at h
      · next hvalid =>
        obtain ⟨hcount, hhead, hn⟩ := hvalid
        obtain ⟨rfl, rfl⟩ := Prod.mk.inj (Option.some.inj h)
        obtain ⟨c, cs, hcs⟩ : ∃ c cs, bs.take (b.toNat - 128) = c :: cs := by
          refine List.exists_cons_of_ne_nil (fun hnil => ?_)
          rw [hnil] at hn
          exact absurd hn (by decide)
        have hc : c ≠ 0 := by
          rw [← List.take_append_drop (b.toNat - 128) bs, hcs] at hhead
          exact hhead
        have hb : 128 + (b.toNat - 128) = b.toNat := by omega
        have hoctets : lengthOctets (value (bs.take (b.toNat - 128)))
            = b :: bs.take (b.toNat - 128) := by
          rw [lengthOctets, if_neg (not_lt.mpr hn), hcs]
          dsimp only
          rw [digits_value hc, ← hcs, List.length_take_of_le hcount, hb, UInt8.ofNat_toNat]
        rw [hoctets, List.cons_append, List.take_append_drop]
      · cases h

/-! ## Elements -/

/-- An element: its tag, its length and its contents. -/
def element (tag : UInt8) (contents : List UInt8) : List UInt8 :=
  tag :: lengthOctets contents.length ++ contents

/-- The contents of the element with this tag that some bytes begin with, and what comes
after it. -/
def readElement (tag : UInt8) : List UInt8 → Option (List UInt8 × List UInt8)
  | [] => none
  | t :: bs =>
    if t = tag then
      match readLength bs with
      | some (n, rest) => if n ≤ rest.length then some (rest.take n, rest.drop n) else none
      | none => none
    else none

theorem readElement_element (tag : UInt8) {contents : List UInt8} (h : contents.length < 128)
    (rest : List UInt8) :
    readElement tag (element tag contents ++ rest) = some (contents, rest) := by
  rw [element, lengthOctets, if_pos h]
  simp [readElement, readLength_short h]

/-- **Contents are read from their element only.** -/
theorem eq_of_readElement {tag : UInt8} {bs contents rest : List UInt8}
    (h : readElement tag bs = some (contents, rest)) : bs = element tag contents ++ rest := by
  match bs with
  | [] => cases h
  | t :: bs =>
    rw [readElement] at h
    split at h
    · next htag =>
      split at h
      · next n after hn =>
        split at h
        · next hle =>
          obtain ⟨rfl, rfl⟩ := Prod.mk.inj (Option.some.inj h)
          rw [eq_of_readLength hn, element, List.length_take_of_le hle, htag]
          simp
        · cases h
      · cases h
    · cases h

/-! ## A sequence of two integers -/

/-- The integer that some bytes begin with, and what comes after it. -/
def readInteger (bs : List UInt8) : Option (ℤ × List UInt8) :=
  match readElement 2 bs with
  | some (contents, rest) => if minimal contents then some (signed contents, rest) else none
  | none => none

/-- **The two integers of a sequence**, if nothing else is in it and nothing after it. -/
def readPair (bs : List UInt8) : Option (ℤ × ℤ) :=
  match readElement 48 bs with
  | some (contents, []) =>
    match readInteger contents with
    | some (r, rest) =>
      match readInteger rest with
      | some (s, []) => some (r, s)
      | _ => none
    | none => none
  | _ => none

theorem readInteger_element {contents : List UInt8} (h : contents.length < 128)
    (hmin : minimal contents = true) (rest : List UInt8) :
    readInteger (element 2 contents ++ rest) = some (signed contents, rest) := by
  rw [readInteger, readElement_element 2 h]
  exact if_pos hmin

theorem readInteger_eq_some {bs rest : List UInt8} {z : ℤ}
    (h : readInteger bs = some (z, rest)) :
    ∃ contents, minimal contents = true ∧ signed contents = z
      ∧ bs = element 2 contents ++ rest := by
  unfold readInteger at h
  split at h
  · next contents after hread =>
    split at h
    · next hmin =>
      obtain ⟨rfl, rfl⟩ := Prod.mk.inj (Option.some.inj h)
      exact ⟨contents, hmin, rfl, eq_of_readElement hread⟩
    · cases h
  · cases h

theorem readPair_eq_some {bs : List UInt8} {r s : ℤ} (h : readPair bs = some (r, s)) :
    ∃ cr cs, minimal cr = true ∧ signed cr = r ∧ minimal cs = true ∧ signed cs = s
      ∧ bs = element 48 (element 2 cr ++ element 2 cs) := by
  unfold readPair at h
  split at h
  · next contents hread =>
    split at h
    · next r' rest hr =>
      split at h
      · next s' hs =>
        obtain ⟨rfl, rfl⟩ := Prod.mk.inj (Option.some.inj h)
        obtain ⟨cr, hcr, hr', rfl⟩ := readInteger_eq_some hr
        obtain ⟨cs, hcs, hs', rfl⟩ := readInteger_eq_some hs
        refine ⟨cr, cs, hcr, hr', hcs, hs', ?_⟩
        simpa using eq_of_readElement hread
      · cases h
    · cases h
  · cases h

/-- **Two numbers are read from one text only.** -/
theorem eq_of_readPair {as bs : List UInt8} {v : ℤ × ℤ} (ha : readPair as = some v)
    (hb : readPair bs = some v) : as = bs := by
  obtain ⟨cr, cs, hcr, hr, hcs, hs, rfl⟩ := readPair_eq_some ha
  obtain ⟨cr', cs', hcr', hr', hcs', hs', rfl⟩ := readPair_eq_some hb
  rw [eq_of_minimal hcr hcr' (hr.trans hr'.symm), eq_of_minimal hcs hcs' (hs.trans hs'.symm)]

theorem readPair_element {cr cs : List UInt8} (hcr : minimal cr = true) (hcs : minimal cs = true)
    (hlen : cr.length + cs.length + 4 < 128) :
    readPair (element 48 (element 2 cr ++ element 2 cs)) = some (signed cr, signed cs) := by
  have hr : cr.length < 128 := by omega
  have hs : cs.length < 128 := by omega
  have hseq : (element 2 cr ++ element 2 cs).length < 128 := by
    simp only [element, lengthOctets, if_pos hr, if_pos hs, List.length_append, List.length_cons,
      List.length_nil]
    omega
  have hread := readElement_element 48 hseq []
  have hfirst := readInteger_element hr hcr (element 2 cs)
  have hsecond := readInteger_element hs hcs []
  rw [List.append_nil] at hread hsecond
  simp only [readPair, hread, hfirst, hsecond]

end Der
