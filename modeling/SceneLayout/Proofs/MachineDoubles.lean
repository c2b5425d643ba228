import SceneLayout.Proofs.Doubles
import SceneLayout.Proofs.NearestDoubles

/-!
# Machine doubles and their exact forms

The bits of a machine double are taken apart into a sign, a mantissa and an exponent. Its unpacked
form names the same three, so what is known about the order of unpacked doubles is known about
exact values. In the other direction the bits of a finite exact form are put together to the machine
double that it came from.

Main statements: `ofFloat_eq`, `toRat_le_of_le`, `ofFloat_toFloat`.
-/

namespace SceneLayout

open Float.Model (UnpackedFloat)

namespace Binary64

/-! ## The fields of a double -/

theorem toNat_unpackMantissa (bits : BitVec Float.Model.Format.binary64.numBits) :
    (UnpackedFloat.unpackMantissa bits).toNat = bits.toNat % hiddenBit := by
  rw [UnpackedFloat.unpackMantissa, BitVec.toNat_cast, BitVec.extractLsb_toNat]
  rfl

theorem toNat_unpackExponent (bits : BitVec Float.Model.Format.binary64.numBits) :
    (UnpackedFloat.unpackExponent bits).toNat = bits.toNat / hiddenBit % 2048 := by
  rw [UnpackedFloat.unpackExponent, BitVec.toNat_cast, BitVec.extractLsb_toNat,
    Nat.shiftRight_eq_div_pow]
  rfl

theorem unpackSign_eq_zero_iff (bits : BitVec Float.Model.Format.binary64.numBits) :
    UnpackedFloat.unpackSign bits = 0#1 ↔ ¬signBit ≤ bits.toNat := by
  have bound : bits.toNat < 2 ^ 64 := bits.isLt
  rw [← BitVec.toNat_inj, UnpackedFloat.unpackSign, BitVec.toNat_cast, BitVec.extractLsb_toNat,
    Nat.shiftRight_eq_div_pow]
  change bits.toNat / 0x8000000000000000 % 2 = 0 ↔ ¬0x8000000000000000 ≤ bits.toNat
  omega

/-- Whether a sign is the negative one. -/
def isMinus : UnpackedFloat.Sign → Bool
  | .negative => true
  | .positive => false

/-- The exact form of an unpacked double. -/
def ofUnpacked : UnpackedFloat → Binary64
  | .notANumber => nan
  | .infinity sign => infinity (isMinus sign)
  | .zero sign => zero (isMinus sign)
  | .finite sign mantissa exponent _ => finite (isMinus sign) mantissa exponent

theorem isMinus_ofBitVec (bits : BitVec Float.Model.Format.binary64.numBits) :
    isMinus (UnpackedFloat.Sign.ofBitVec (UnpackedFloat.unpackSign bits)) =
      decide (signBit ≤ bits.toNat) := by
  have sign := unpackSign_eq_zero_iff bits
  unfold UnpackedFloat.Sign.ofBitVec
  split_ifs with positive
  · exact (decide_eq_false (sign.mp positive)).symm
  · exact (decide_eq_true (not_not.mp (sign.not.mp positive))).symm

/-- The hidden bit stands before the bits of the mantissa. -/
theorem toNat_hiddenBit_append (mantissa : BitVec 52) :
    (1#1 ++ mantissa).toNat = hiddenBit + mantissa.toNat := by
  rw [BitVec.toNat_append, ← Nat.shiftLeft_add_eq_or_of_lt mantissa.isLt, Nat.shiftLeft_eq]
  rfl

/-- The bits of a double are taken apart as its unpacked form says. -/
theorem ofBits_eq (bits : BitVec Float.Model.Format.binary64.numBits) :
    ofBits bits.toNat = ofUnpacked (UnpackedFloat.unpack .binary64 bits) := by
  have mantissa := toNat_unpackMantissa bits
  have exponent := toNat_unpackExponent bits
  have top : UnpackedFloat.unpackExponent bits = -1#11 ↔ bits.toNat / hiddenBit % 2048 = 2047 := by
    rw [← exponent, ← BitVec.toNat_inj]
    rfl
  have bottom : UnpackedFloat.unpackExponent bits = 0#11 ↔ bits.toNat / hiddenBit % 2048 = 0 := by
    rw [← exponent, ← BitVec.toNat_inj]
    rfl
  have empty : UnpackedFloat.unpackMantissa bits = 0#52 ↔ bits.toNat % hiddenBit = 0 := by
    rw [← mantissa, ← BitVec.toNat_inj]
    rfl
  unfold ofBits UnpackedFloat.unpack
  dsimp only
  rw [← isMinus_ofBitVec bits]
  simp only [top, bottom, empty]
  split_ifs with infinite zero least none
  · rfl
  · rfl
  · rw [none]
    rfl
  · rw [ofUnpacked, mantissa, exponent, least]
    rfl
  · rw [ofUnpacked, toNat_hiddenBit_append, mantissa, exponent]
    rfl

theorem ofFloat_eq (x : Float) : ofFloat x = ofUnpacked x.toModel.unpack :=
  ofBits_eq x.toModel.toBits.toBitVec

/-- The bits of a double have the form of one. -/
theorem canonical_ofBits (bits : ℕ) : (ofBits bits).Canonical := by
  have field : bits / hiddenBit % 2048 < 2048 := Nat.mod_lt _ (by decide)
  have fraction : bits % hiddenBit < hiddenBit := Nat.mod_lt _ (by decide)
  unfold ofBits
  dsimp only
  generalize bits / hiddenBit % 2048 = exponent at field ⊢
  generalize bits % hiddenBit = mantissa at fraction ⊢
  rw [hiddenBit] at fraction ⊢
  split_ifs with infinite zero least
  · trivial
  · trivial
  · refine ⟨le_rfl, by decide, ?_, .inl rfl⟩
    rw [mantissaBound]
    omega
  · refine ⟨?_, ?_, ?_, .inr ?_⟩
    · rw [leastExponent]
      omega
    · rw [greatestExponent]
      omega
    · rw [mantissaBound]
      omega
    · rw [mantissaBound]
      omega

theorem canonical_ofFloat (x : Float) : (ofFloat x).Canonical := canonical_ofBits _

/-! ## Order -/

/-- Magnitudes are ordered by their exponents first. -/
theorem magnitude_le {negative negative' : Bool} {m n : ℕ} {e f : ℤ}
    (canonical : (finite negative m e).Canonical) (canonical' : (finite negative' n f).Canonical)
    (order : e < f ∨ e = f ∧ m ≤ n) : (m : ℚ) * 2 ^ e ≤ n * 2 ^ f := by
  rcases order with lower | ⟨rfl, small⟩
  · by_contra above
    have exponents := (roundsAt_of_canonical canonical').fits.mono
      (roundsAt_of_canonical canonical).fits (not_le.mp above).le
    omega
  · have small : (m : ℚ) ≤ n := Nat.cast_le.mpr small
    gcongr

/-- Places and exact values have the same order. -/
theorem toRat_ofUnpacked_le {a b : UnpackedFloat} (canonical : (ofUnpacked a).Canonical)
    (canonical' : (ofUnpacked b).Canonical) (stays : (ofUnpacked a).isFinite = true)
    (stays' : (ofUnpacked b).isFinite = true) (order : ∃ p ∈ place a, ∃ q ∈ place b, p ≤ q) :
    (ofUnpacked a).toRat ≤ (ofUnpacked b).toRat := by
  rcases a with _ | _ | sign | ⟨_ | _, m, e, _⟩
  · exact absurd stays Bool.false_ne_true
  · exact absurd stays Bool.false_ne_true
  · refine (toRat_zero _).le.trans ?_
    rcases b with _ | _ | _ | ⟨_ | _, n, f, _⟩
    · exact absurd stays' Bool.false_ne_true
    · exact absurd stays' Bool.false_ne_true
    · exact (toRat_zero _).ge
    · simp [place, Prod.Lex.toLex_le_toLex] at order
    · exact toRat_finite_nonneg n f
  · rcases b with _ | _ | _ | ⟨_ | _, n, f, _⟩
    · exact absurd stays' Bool.false_ne_true
    · exact absurd stays' Bool.false_ne_true
    · exact (toRat_finite_nonpos m e).trans (toRat_zero _).ge
    · simp only [place, Option.mem_some_iff, exists_eq_left', Prod.Lex.toLex_le_toLex] at order
      exact neg_le_neg (magnitude_le canonical' canonical (by omega))
    · exact (toRat_finite_nonpos m e).trans (toRat_finite_nonneg n f)
  · rcases b with _ | _ | _ | ⟨_ | _, n, f, _⟩
    · exact absurd stays' Bool.false_ne_true
    · exact absurd stays' Bool.false_ne_true
    · simp [place, Prod.Lex.toLex_le_toLex] at order
    · simp [place, Prod.Lex.toLex_le_toLex] at order
    · simp only [place, Option.mem_some_iff, exists_eq_left', Prod.Lex.toLex_le_toLex] at order
      exact magnitude_le canonical canonical' (by omega)

theorem isFinite_ofFloat (x : Float) : (ofFloat x).isFinite = x.isFinite := by
  rw [ofFloat_eq, Float.isFinite, Float.Model.isFinite]
  cases x.toModel.unpack <;> rfl

theorem isDouble_ofFloat {x : Float} (h : x.isFinite = true) : (ofFloat x).IsDouble :=
  ⟨canonical_ofFloat x, (isFinite_ofFloat x).trans h⟩

/-- The order of finite doubles is the order of their exact values. -/
theorem toRat_le_of_le {x y : Float} (first : x.isFinite = true) (second : y.isFinite = true)
    (order : x ≤ y) : (ofFloat x).toRat ≤ (ofFloat y).toRat := by
  obtain ⟨canonical, stays⟩ := isDouble_ofFloat first
  obtain ⟨canonical', stays'⟩ := isDouble_ofFloat second
  have places := le_iff_place.mp (decide_eq_true order)
  rw [ofFloat_eq] at stays canonical stays' canonical' ⊢
  rw [ofFloat_eq]
  exact toRat_ofUnpacked_le canonical canonical' stays stays' places

/-! ## Exact forms as machine doubles -/

/-- A sign, the bits of an exponent and the bits of a mantissa are found again in their places. -/
theorem signed_fields (negative : Bool) {field fraction : ℕ} (few : field < 2048)
    (small : fraction < hiddenBit) {bits : ℕ}
    (h : bits = toBits.signed negative (field * hiddenBit + fraction)) :
    bits < 2 ^ 64 ∧ decide (signBit ≤ bits) = negative ∧ bits / hiddenBit % 2048 = field ∧
      bits % hiddenBit = fraction := by
  subst h
  cases negative <;> simp only [toBits.signed, if_true, if_false, Bool.false_eq_true, signBit,
    hiddenBit, decide_eq_true_eq, decide_eq_false_iff_not] at small ⊢ <;> omega

/-- The bits of a finite double: the exponent field is not the one of infinity. -/
theorem exists_toBits_eq {negative : Bool} {m : ℕ} {e : ℤ}
    (canonical : (finite negative m e).Canonical) :
    ∃ field fraction, field < 2047 ∧ fraction < hiddenBit ∧
      (finite negative m e).toBits = toBits.signed negative (field * hiddenBit + fraction) ∧
      finite negative m e = if field = 0 then finite negative fraction leastExponent
        else finite negative (hiddenBit + fraction) ((field : ℤ) - 1075) := by
  obtain ⟨least, great, small, normal⟩ := canonical
  by_cases below : m < hiddenBit
  · have lowest : e = leastExponent := normal.resolve_right fun normal => by
      rw [mantissaBound] at normal
      rw [hiddenBit] at below
      omega
    refine ⟨0, m, by decide, below, ?_, by rw [if_pos rfl, lowest]⟩
    rw [toBits, if_pos below, Nat.zero_mul, Nat.zero_add]
  · rw [leastExponent] at least
    rw [greatestExponent] at great
    refine ⟨(e + 1075).toNat, m - hiddenBit, by omega, ?_, by rw [toBits, if_neg below], ?_⟩
    · rw [mantissaBound] at small
      rw [hiddenBit] at below ⊢
      omega
    · have exponent : ((e + 1075).toNat : ℤ) - 1075 = e := by omega
      rw [if_neg (by omega), Nat.add_sub_cancel' (not_lt.mp below), exponent]

theorem ofBits_toBits {negative : Bool} {m : ℕ} {e : ℤ}
    (canonical : (finite negative m e).Canonical) :
    ofBits (finite negative m e).toBits = finite negative m e := by
  obtain ⟨field, fraction, few, small, bits, form⟩ := exists_toBits_eq canonical
  obtain ⟨-, sign, exponent, mantissa⟩ := signed_fields negative (by omega) small bits
  rw [ofBits, sign, exponent, mantissa, if_neg few.ne, ← form]

/-- The machine double of a finite value has that value for its exact form. -/
theorem IsDouble.ofFloat_toFloat {x : Binary64} (h : x.IsDouble) : ofFloat x.toFloat = x := by
  obtain ⟨negative, m, e, rfl, canonical⟩ := h.exists_eq_finite
  obtain ⟨field, fraction, few, small, bits, form⟩ := exists_toBits_eq canonical
  obtain ⟨bound, -, exponent, -⟩ := signed_fields negative (by omega) small bits
  set word := UInt64.ofNat (finite negative m e).toBits with wordEq
  have same : word.toBitVec.toNat = (finite negative m e).toBits := by
    rw [UInt64.toNat_toBitVec, wordEq, UInt64.toNat_ofNat_of_lt' bound]
  have valid : Float.Model.Format.binary64.Valid word.toBitVec := by
    refine ⟨fun top => absurd (congrArg BitVec.toNat top) ?_⟩
    rw [toNat_unpackExponent, same, exponent]
    exact few.ne
  have kept : (Float.ofBits word).toModel.toBits.toBitVec = word.toBitVec :=
    UnpackedFloat.pack_unpack_of_valid valid
  calc ofFloat (finite negative m e).toFloat
      = ofBits (Float.ofBits word).toModel.toBits.toBitVec.toNat := rfl
    _ = ofBits (finite negative m e).toBits := by rw [kept, same]
    _ = finite negative m e := ofBits_toBits canonical

end Binary64

end SceneLayout
