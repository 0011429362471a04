import Actjs.Auth
import Actjs.Der

/-!
# ECDSA signatures

A signature of a JWT is two numbers of 32 bytes each, one after the other; what verifies
it wants the two in DER. A number may begin with zeros, may be zero altogether, and may
have its highest bit set, which in DER would make it negative.
-/

open Der

/-! ## One number

Leading zeros go, all but one; and where the highest bit is set a zero comes
back, so that the number is not negative. -/

/-- `trimLeadingZeros`. -/
def trimLeadingZeros (buf : Bytes) : Bytes :=
  buf.drop (min (buf.takeWhile (fun b => b == 0)).length (buf.length - 1))

/-- The contents of the INTEGER that a number is written as. -/
def integerContents (buf : Bytes) : Bytes :=
  if 128 ≤ ((trimLeadingZeros buf).headD 0).toNat then 0 :: trimLeadingZeros buf
  else trimLeadingZeros buf

/-- What is left when zeros are taken off: the same number, and no zero in front but for
zero itself. -/
theorem trimLeadingZeros_spec {buf : Bytes} (h : buf ≠ []) :
    ∃ b bs, trimLeadingZeros buf = b :: bs ∧ value (b :: bs) = value buf
      ∧ (b = 0 → bs = []) ∧ bs.length < buf.length := by
  induction buf with
  | nil => exact absurd rfl h
  | cons b bs ih =>
    match bs, ih with
    | [], _ => exact ⟨b, [], by simp [trimLeadingZeros], rfl, fun _ => rfl, by simp⟩
    | c :: bs, ih =>
      by_cases hb : b = 0
      · obtain ⟨d, ds, htrim, hvalue, hzero, hlen⟩ := ih (by simp)
        refine ⟨d, ds, ?_, ?_, hzero, hlen.trans (by simp)⟩
        · rw [← htrim, hb]
          simp [trimLeadingZeros, Nat.succ_min_succ]
        · rw [hvalue, hb, value_zero_cons]
      · refine ⟨b, c :: bs, ?_, rfl, fun h0 => absurd h0 hb, by simp⟩
        simp [trimLeadingZeros, hb]

theorem integerContents_spec {buf : Bytes} (h : buf ≠ []) :
    minimal (integerContents buf) = true ∧ signed (integerContents buf) = value buf
      ∧ (integerContents buf).length ≤ buf.length + 1 := by
  obtain ⟨b, bs, htrim, hvalue, hzero, hlen⟩ := trimLeadingZeros_spec h
  unfold integerContents
  rw [htrim, List.headD_cons]
  split
  · next hhigh =>
    have hsign : ((0 :: b :: bs).headD 0).toNat < 128 := by simp
    refine ⟨decide_eq_true ⟨?_, ?_⟩, ?_, ?_⟩
    · exact fun hpad => absurd hpad.2 (not_lt.mpr hhigh)
    · exact fun hpad => absurd hpad.1 (by decide)
    · rw [signed_of_lt hsign, value_zero_cons, hvalue]
    · simpa using hlen
  · next hlow =>
    have hsign : ((b :: bs).headD 0).toNat < 128 := not_le.mp hlow
    refine ⟨?_, ?_, hlen.trans_le (Nat.le_succ _)⟩
    · match bs, hzero with
      | [], _ => rfl
      | c :: cs, hzero =>
        refine decide_eq_true ⟨fun hpad => ?_, fun hpad => ?_⟩
        · exact absurd (hzero (UInt8.toNat_inj.mp hpad.1)) (by simp)
        · omega
    · rw [signed_of_lt hsign, hvalue]

/-- `encodeAsn1Integer` of what `trimLeadingZeros` leaves is the INTEGER. -/
theorem encodeAsn1Integer_eq {buf : Bytes} (h : buf ≠ []) (hlen : buf.length ≤ 126) :
    encodeAsn1Integer buf = element 2 (integerContents buf) := by
  have hshort : (integerContents buf).length < 128 := by
    have := (integerContents_spec h).2.2
    omega
  rw [element, lengthOctets, if_pos hshort]
  rfl

/-! ## The two of them -/

section Signature

variable {sig : Bytes}

theorem take_ne_nil (h : sig.length = 64) : sig.take 32 ≠ [] := by
  intro hnil
  have hlen := congrArg List.length hnil
  simp [h] at hlen

theorem drop_ne_nil (h : sig.length = 64) : sig.drop 32 ≠ [] := by
  intro hnil
  have hlen := congrArg List.length hnil
  simp [h] at hlen

/-- The contents are short. -/
theorem length_integerContents_add (h : sig.length = 64) :
    (integerContents (sig.take 32)).length + (integerContents (sig.drop 32)).length ≤ 66 := by
  have hr := (integerContents_spec (take_ne_nil h)).2.2
  have hs := (integerContents_spec (drop_ne_nil h)).2.2
  rw [List.length_take, h] at hr
  rw [List.length_drop, h] at hs
  omega

/-- How an element with short contents begins. -/
theorem element_short (tag : UInt8) {contents : Bytes} (h : contents.length < 128) :
    element tag contents = tag :: UInt8.ofNat contents.length :: contents := by
  rw [element, lengthOctets, if_pos h]
  rfl

/-- The contents of the sequence. -/
theorem element_append_element {r s : Bytes} (hr : r.length < 128) (hs : s.length < 128) :
    element 2 r ++ element 2 s
      = 2 :: UInt8.ofNat r.length :: r ++ 2 :: UInt8.ofNat s.length :: s := by
  rw [element_short 2 hr, element_short 2 hs]

/-- **`joseEcdsaToDer` writes a sequence of two integers.** -/
theorem joseEcdsaToDer_eq (h : sig.length = 64) :
    joseEcdsaToDer sig = element 48 (element 2 (integerContents (sig.take 32))
      ++ element 2 (integerContents (sig.drop 32))) := by
  have hlen := length_integerContents_add h
  have hr : (integerContents (sig.take 32)).length < 128 := by omega
  have hs : (integerContents (sig.drop 32)).length < 128 := by omega
  have hseq : (element 2 (integerContents (sig.take 32))
      ++ element 2 (integerContents (sig.drop 32))).length < 128 := by
    rw [element_append_element hr hs]
    simp only [List.length_append, List.length_cons]
    omega
  rw [joseEcdsaToDer, if_neg (not_not.mpr h), encodeAsn1Integer_eq (take_ne_nil h) (by simp [h]),
    encodeAsn1Integer_eq (drop_ne_nil h) (by simp [h]), element_short 48 hseq]
  rfl

end Signature

/-- **The DER of a signature**: what `joseEcdsaToDer` writes is read back as a sequence of
two integers, the two numbers of the signature, and nothing else is read back as these;
every length is one byte, below 128, and no shorter contents stand for the numbers; and no
other signature is written the same. -/
theorem joseEcdsaToDer_unique {sig : Bytes} (h : sig.length = 64) :
    readPair (joseEcdsaToDer sig) = some ((value (sig.take 32) : ℤ), (value (sig.drop 32) : ℤ))
    ∧ (∀ der, readPair der = some ((value (sig.take 32) : ℤ), (value (sig.drop 32) : ℤ)) →
      der = joseEcdsaToDer sig)
    ∧ (∃ r s : Bytes, joseEcdsaToDer sig
        = 48 :: UInt8.ofNat (r.length + s.length + 4) :: 2 :: UInt8.ofNat r.length :: r
          ++ 2 :: UInt8.ofNat s.length :: s
      ∧ r.length + s.length + 4 < 128
      ∧ signed r = value (sig.take 32) ∧ signed s = value (sig.drop 32)
      ∧ (∀ r' ≠ [], signed r' = signed r → r.length ≤ r'.length)
      ∧ ∀ s' ≠ [], signed s' = signed s → s.length ≤ s'.length)
    ∧ ∀ sig', sig'.length = 64 → joseEcdsaToDer sig' = joseEcdsaToDer sig → sig' = sig := by
  have hread : ∀ {sig : Bytes}, sig.length = 64 → readPair (joseEcdsaToDer sig)
      = some ((value (sig.take 32) : ℤ), (value (sig.drop 32) : ℤ)) := by
    intro sig h
    obtain ⟨hrmin, hr, -⟩ := integerContents_spec (take_ne_nil h)
    obtain ⟨hsmin, hs, -⟩ := integerContents_spec (drop_ne_nil h)
    have hlen := length_integerContents_add h
    rw [joseEcdsaToDer_eq h, readPair_element hrmin hsmin (by omega), hr, hs]
  refine ⟨hread h, fun der hder => eq_of_readPair hder (hread h), ?_, fun sig' h' heq => ?_⟩
  · obtain ⟨hrmin, hr, -⟩ := integerContents_spec (take_ne_nil h)
    obtain ⟨hsmin, hs, -⟩ := integerContents_spec (drop_ne_nil h)
    have hlen := length_integerContents_add h
    refine ⟨integerContents (sig.take 32), integerContents (sig.drop 32), ?_, by omega, hr, hs,
      fun r' hne heq => length_le_of_minimal hrmin hne heq,
      fun s' hne heq => length_le_of_minimal hsmin hne heq⟩
    have hcount : ((2 : UInt8) :: UInt8.ofNat (integerContents (sig.take 32)).length
        :: integerContents (sig.take 32) ++ 2
        :: UInt8.ofNat (integerContents (sig.drop 32)).length
        :: integerContents (sig.drop 32)).length
        = (integerContents (sig.take 32)).length + (integerContents (sig.drop 32)).length + 4 := by
      simp only [List.length_append, List.length_cons]
      omega
    rw [joseEcdsaToDer_eq h, element_append_element (by omega) (by omega),
      element_short 48 (by omega), hcount]
    rfl
  · have hsame := Option.some.inj ((hread h').symm.trans (heq ▸ hread h))
    have hr := Int.ofNat_inj.mp (congrArg Prod.fst hsame)
    have hs := Int.ofNat_inj.mp (congrArg Prod.snd hsame)
    rw [← List.take_append_drop 32 sig', ← List.take_append_drop 32 sig,
      eq_of_value_eq (by simp [h, h']) hr, eq_of_value_eq (by simp [h, h']) hs]

/-- A signature of which one number is zero and the other has its highest bit set. -/
theorem joseEcdsaToDer_unique_zero :
    readPair (joseEcdsaToDer (List.replicate 32 0 ++ 128 :: List.replicate 31 0))
      = some (0, 2 ^ 255) := by
  have h := (joseEcdsaToDer_unique
    (show (List.replicate 32 (0 : UInt8) ++ 128 :: List.replicate 31 0).length = 64 by decide)).1
  rw [h]
  decide +kernel
