import Mathlib.Algebra.Order.Field.Power
import Mathlib.Data.Nat.Log
import Nsl.Base.Decimal
/-!
# Arithmetic — sums in a decimal context

Addition of the General Decimal Arithmetic specification: the exact sum, rounded half to even to the precision of a
context. A value `Fits` a context when it can be written with that many digits there. A sum is exact exactly when its value
fits (`add_exact_iff`); what does not fit is rounded or overflows.
-/
namespace Decimal

/-- A precision and the least and the greatest adjusted exponent; rounding is half to even. -/
structure Context where
  precision : Nat
  least     : Int
  greatest  : Int

namespace Context

/-- The exponent of the finest unit (`Etiny`). -/
def tiny (ctx : Context) : Int := ctx.least - ctx.precision + 1

/-- The greatest exponent of a number with all its digits (`Etop`). -/
def top (ctx : Context) : Int := ctx.greatest - ctx.precision + 1

/-- A context in which one digit can be written. -/
def Proper (ctx : Context) : Prop := 0 < ctx.precision ∧ ctx.tiny ≤ ctx.top

end Context

def digitCount (n : Nat) : Nat := Nat.log 10 n + 1

/-- `n` over a power of ten, rounded half to even. -/
def roundHalfEven (n places : Nat) : Nat :=
  let quotient := n / 10 ^ places
  let rest := n % 10 ^ places
  if 10 ^ places < 2 * rest ∨ (2 * rest = 10 ^ places ∧ quotient % 2 = 1) then quotient + 1 else quotient

/-- `_fix`: an exact result in a context; none for an overflow. -/
def fix (ctx : Context) (negative : Bool) (c : Nat) (e : Int) : Option Decimal :=
  if c = 0 then some (.finite negative 0 (min (max e ctx.tiny) ctx.greatest))
  else if ctx.top < digitCount c + e - ctx.precision then none
  else
    let unit := max (digitCount c + e - ctx.precision) ctx.tiny
    if e < unit then
      let rounded := roundHalfEven c (unit - e).toNat
      -- one digit too many: the rounding went up to a power of ten
      let carried := if ctx.precision < digitCount rounded then (rounded / 10, unit + 1) else (rounded, unit)
      if ctx.top < carried.2 then none else some (.finite negative carried.1 carried.2)
    else some (.finite negative c e)

/-- A coefficient with its sign, in units of a smaller exponent. -/
def signedAt (unit : Int) (negative : Bool) (c : Nat) (e : Int) : Int :=
  (if negative then -1 else 1) * c * 10 ^ (e - unit).toNat

/-- `a + b` of finite numbers; none for an overflow. -/
def add (ctx : Context) : Decimal → Decimal → Option Decimal
  | .finite m c e, .finite n d f =>
    let unit := min e f
    let sum := signedAt unit m c e + signedAt unit n d f
    fix ctx (if sum = 0 then m && n else sum < 0) sum.natAbs unit
  | _, _ => none

/-- `copy_negate` -/
def negate : Decimal → Decimal
  | .finite n c e => .finite (!n) c e
  | .infinity n   => .infinity (!n)
  | .nan n s p    => .nan (!n) s p

/-- `a - b` -/
def sub (ctx : Context) (a b : Decimal) : Option Decimal := add ctx a b.negate

/-! ## Values -/

/-- The value of a coefficient at an exponent. -/
def valueAt (negative : Bool) (c : Nat) (e : Int) : ℚ := (if negative then -1 else 1) * c * (10 : ℚ) ^ e

/-- **The value can be written in the context.** -/
def Fits (ctx : Context) (q : ℚ) : Prop :=
  ∃ (n : Int) (e : Int), q = n * (10 : ℚ) ^ e ∧ n.natAbs < 10 ^ ctx.precision ∧ ctx.tiny ≤ e ∧ e ≤ ctx.top

theorem ten_pos : (0 : ℚ) < 10 := by decide

theorem lt_digitCount (c : Nat) : c < 10 ^ digitCount c := Nat.lt_pow_succ_log_self (by decide) c

theorem digitCount_le {c : Nat} (h : c ≠ 0) : 10 ^ (digitCount c - 1) ≤ c := Nat.pow_log_le_self 10 h

/-- The signed value of a natural number. -/
theorem valueAt_eq (negative : Bool) (c : Nat) (e : Int) :
    valueAt negative c e = ((if negative then -1 else 1) * (c : Int) : Int) * (10 : ℚ) ^ e := by
  unfold valueAt
  cases negative <;> simp

theorem fits_valueAt {ctx : Context} {negative : Bool} {c : Nat} {e : Int} (hc : c < 10 ^ ctx.precision)
    (hle : ctx.tiny ≤ e) (hge : e ≤ ctx.top) : Fits ctx (valueAt negative c e) := by
  refine ⟨(if negative then -1 else 1) * (c : Int), e, valueAt_eq negative c e, ?_, hle, hge⟩
  cases negative <;> simpa using hc

/-- The same value with a smaller exponent. -/
theorem valueAt_shift (negative : Bool) (c : Nat) (e : Int) (k : Nat) :
    valueAt negative (c * 10 ^ k) (e - k) = valueAt negative c e := by
  unfold valueAt
  have hten : ((10 : ℚ) ^ k) * 10 ^ (e - k) = 10 ^ e := by
    rw [← zpow_natCast, ← zpow_add₀ (ne_of_gt ten_pos)]
    congr 1
    omega
  rw [Nat.cast_mul, Nat.cast_pow, ← mul_assoc, mul_assoc, Nat.cast_ofNat, hten]

theorem digitCount_le_iff {n p : Nat} (hp : 0 < p) : digitCount n ≤ p ↔ n < 10 ^ p := by
  rw [digitCount, Nat.succ_le_iff]
  by_cases hn : n = 0
  · subst hn
    simp [hp]
  · exact Nat.log_lt_iff_lt_pow (by decide) hn

/-! ## Rounding -/

theorem roundHalfEven_le (n places : Nat) : roundHalfEven n places ≤ n / 10 ^ places + 1 := by
  unfold roundHalfEven
  simp only
  split <;> omega

theorem roundHalfEven_exact {n places : Nat} (h : 10 ^ places ∣ n) : roundHalfEven n places = n / 10 ^ places := by
  have hpos : 0 < 10 ^ places := Nat.pow_pos (by decide)
  have hrest : n % 10 ^ places = 0 := Nat.mod_eq_zero_of_dvd h
  unfold roundHalfEven
  rw [if_neg (by rw [hrest]; omega)]

/-- Where the digits beyond the precision are dropped, no more than the precision are left. -/
theorem div_lt_precision {ctx : Context} {c : Nat} {e unit : Int} (hunit : digitCount c + e - ctx.precision ≤ unit)
    (he : e ≤ unit) : c / 10 ^ (unit - e).toNat < 10 ^ ctx.precision := by
  refine Nat.div_lt_of_lt_mul ((lt_digitCount c).trans_le ?_)
  rw [← pow_add]
  exact Nat.pow_le_pow_right (by decide) (by omega)

/-- **What a context makes of a result fits it.** -/
theorem fix_fits {ctx : Context} (hctx : ctx.Proper) {negative : Bool} {c : Nat} {e : Int} {d : Decimal}
    (h : fix ctx negative c e = some d) : ∃ q, d.toRat = some q ∧ Fits ctx q := by
  obtain ⟨hprecision, htop⟩ := hctx
  unfold fix at h
  by_cases hc : c = 0
  · rw [if_pos hc] at h
    cases h
    refine ⟨_, rfl, 0, ctx.tiny, by simp, by simp, le_rfl, htop⟩
  rw [if_neg hc] at h
  by_cases hover : ctx.top < digitCount c + e - ctx.precision
  · rw [if_pos hover] at h
    cases h
  rw [if_neg hover] at h
  simp only at h
  generalize hunit : max ((digitCount c : Int) + e - ctx.precision) ctx.tiny = unit at h
  have hdigits : (digitCount c : Int) + e - ctx.precision ≤ unit := hunit ▸ le_max_left _ _
  have htiny : ctx.tiny ≤ unit := hunit ▸ le_max_right _ _
  by_cases he : e < unit
  · rw [if_pos he] at h
    have hquotient := div_lt_precision hdigits he.le
    have hrounded := roundHalfEven_le c (unit - e).toNat
    generalize roundHalfEven c (unit - e).toNat = rounded at h hrounded
    by_cases hcarry : ctx.precision < digitCount rounded
    · rw [if_pos hcarry] at h
      by_cases hlast : ctx.top < unit + 1
      · rw [if_pos hlast] at h
        cases h
      · rw [if_neg hlast] at h
        cases h
        have hpower : 0 < 10 ^ ctx.precision := Nat.pow_pos (by decide)
        exact ⟨_, rfl, fits_valueAt (by omega) (by omega) (by omega)⟩
    · rw [if_neg hcarry] at h
      simp only at h
      by_cases hlast : ctx.top < unit
      · rw [if_pos hlast] at h
        cases h
      · rw [if_neg hlast] at h
        cases h
        exact ⟨_, rfl, fits_valueAt ((digitCount_le_iff hprecision).1 (by omega)) (by omega) (by omega)⟩
  · rw [if_neg he] at h
    cases h
    refine ⟨_, rfl, ?_⟩
    by_cases hbelow : e ≤ ctx.top
    · exact fits_valueAt ((digitCount_le_iff hprecision).1 (by omega)) (by omega) hbelow
    · -- few digits at a great exponent: written with zeros at the greatest one
      obtain ⟨k, hk⟩ : ∃ k : Nat, e - k = ctx.top := ⟨(e - ctx.top).toNat, by omega⟩
      have hvalue := valueAt_shift negative c e k
      rw [hk] at hvalue
      show Fits ctx (valueAt negative c e)
      rw [← hvalue]
      refine fits_valueAt ?_ htop le_rfl
      calc c * 10 ^ k < 10 ^ digitCount c * 10 ^ k := Nat.mul_lt_mul_of_pos_right (lt_digitCount c) (Nat.pow_pos (by decide))
        _ = 10 ^ (digitCount c + k) := (pow_add ..).symm
        _ ≤ 10 ^ ctx.precision := Nat.pow_le_pow_right (by decide) (by omega)

/-- **A value that fits is left as it is.** -/
theorem fix_exact {ctx : Context} (hctx : ctx.Proper) {negative : Bool} {c : Nat} {e : Int}
    (hfits : Fits ctx (valueAt negative c e)) :
    ∃ d, fix ctx negative c e = some d ∧ d.toRat = some (valueAt negative c e) := by
  obtain ⟨hprecision, htop⟩ := hctx
  unfold fix
  by_cases hc : c = 0
  · refine ⟨_, if_pos hc, ?_⟩
    subst hc
    simp [toRat, valueAt]
  obtain ⟨n, f, hvalue, hn, htiny, hgreat⟩ := hfits
  have habs : (c : ℚ) * 10 ^ e = (n.natAbs : ℚ) * 10 ^ f := by
    have hsize := congrArg abs hvalue
    rw [valueAt, abs_mul, abs_mul, abs_mul, abs_of_pos (zpow_pos ten_pos e), abs_of_pos (zpow_pos ten_pos f),
      Nat.abs_cast] at hsize
    rw [Nat.cast_natAbs, Int.cast_abs, ← hsize]
    cases negative <;> simp
  have hdigits : (digitCount c : Int) + e - ctx.precision ≤ f := by
    have hlow : ((10 : ℚ)) ^ ((digitCount c : Int) - 1 + e) < 10 ^ ((ctx.precision : Int) + f) := by
      calc (10 : ℚ) ^ ((digitCount c : Int) - 1 + e)
          = 10 ^ ((digitCount c : Int) - 1) * 10 ^ e := zpow_add₀ (ne_of_gt ten_pos) _ _
        _ ≤ c * 10 ^ e := by
            refine mul_le_mul_of_nonneg_right ?_ (zpow_pos ten_pos e).le
            have hcast : (digitCount c : Int) - 1 = ((digitCount c - 1 : Nat) : Int) := by
              unfold digitCount
              omega
            rw [hcast, zpow_natCast]
            exact_mod_cast digitCount_le hc
        _ = n.natAbs * 10 ^ f := habs
        _ < 10 ^ (ctx.precision : Int) * 10 ^ f := by
            refine mul_lt_mul_of_pos_right ?_ (zpow_pos ten_pos f)
            rw [zpow_natCast]
            exact_mod_cast hn
        _ = 10 ^ ((ctx.precision : Int) + f) := (zpow_add₀ (ne_of_gt ten_pos) _ _).symm
    have hexp := (zpow_lt_zpow_iff_right₀ (by norm_num : (1 : ℚ) < 10)).1 hlow
    omega
  rw [if_neg hc, if_neg (by omega)]
  simp only
  generalize hunit : max ((digitCount c : Int) + e - ctx.precision) ctx.tiny = unit
  have hle : unit ≤ f := hunit ▸ max_le hdigits htiny
  by_cases he : e < unit
  · rw [if_pos he]
    -- the digits that are dropped are zeros
    have hzeros : c = n.natAbs * 10 ^ (f - e).toNat := by
      have hshift : (c : ℚ) = n.natAbs * 10 ^ (f - e).toNat := by
        have hpow : (10 : ℚ) ^ (f - e).toNat = 10 ^ f / 10 ^ e := by
          rw [← zpow_sub₀ (ne_of_gt ten_pos), ← zpow_natCast]
          congr 1
          omega
        rw [hpow, ← mul_div_assoc, ← habs, mul_div_assoc, div_self (ne_of_gt (zpow_pos ten_pos e)), mul_one]
      exact_mod_cast hshift
    have hdvd : 10 ^ (unit - e).toNat ∣ c :=
      hzeros ▸ (pow_dvd_pow 10 (by omega)).mul_left _
    have hquotient := div_lt_precision (hunit ▸ le_max_left _ _) he.le
    have hcarry : ¬ctx.precision < digitCount (c / 10 ^ (unit - e).toNat) :=
      not_lt.2 ((digitCount_le_iff hprecision).2 hquotient)
    rw [roundHalfEven_exact hdvd, if_neg hcarry, if_neg (by simp only; omega)]
    refine ⟨_, rfl, ?_⟩
    have hback := valueAt_shift negative (c / 10 ^ (unit - e).toNat) unit (unit - e).toNat
    have hexponent : unit - ((unit - e).toNat : Int) = e := by omega
    rw [Nat.div_mul_cancel hdvd, hexponent] at hback
    exact congrArg some hback.symm
  · exact ⟨_, if_neg he, rfl⟩

/-! ## Sums -/

theorem signedAt_value {unit : Int} {negative : Bool} {c : Nat} {e : Int} (h : unit ≤ e) :
    (signedAt unit negative c e : ℚ) * 10 ^ unit = valueAt negative c e := by
  have hpow : (10 : ℚ) ^ (e - unit).toNat * 10 ^ unit = 10 ^ e := by
    rw [← zpow_natCast, ← zpow_add₀ (ne_of_gt ten_pos)]
    congr 1
    omega
  unfold signedAt valueAt
  push_cast
  rw [mul_assoc, hpow]

/-- A signed number of units. -/
theorem valueAt_natAbs {n : Int} {negative : Bool} (hsign : n ≠ 0 → negative = decide (n < 0)) (unit : Int) :
    valueAt negative n.natAbs unit = n * 10 ^ unit := by
  rw [valueAt_eq]
  congr 2
  by_cases hn : n = 0
  · subst hn
    simp
  · rw [hsign hn]
    by_cases hneg : n < 0
    · simp only [hneg, decide_true, if_true]
      omega
    · simp only [hneg, decide_false, Bool.false_eq_true, if_false]
      omega

/-- **What a sum of finite numbers is**: the exact one, made to fit. -/
theorem add_eq (ctx : Context) {a b : Decimal} {x y : ℚ} (ha : a.toRat = some x) (hb : b.toRat = some y) :
    ∃ negative c e, add ctx a b = fix ctx negative c e ∧ valueAt negative c e = x + y := by
  cases a with
  | finite m c e =>
    cases b with
    | finite n d f =>
      cases ha
      cases hb
      refine ⟨_, _, _, rfl, ?_⟩
      rw [valueAt_natAbs (fun hne => if_neg hne), Int.cast_add, add_mul, signedAt_value (min_le_left e f),
        signedAt_value (min_le_right e f)]
      rfl
    | infinity => cases hb
    | nan      => cases hb
  | infinity => cases ha
  | nan      => cases ha

/-- **A sum is exact exactly when its value fits.** -/
theorem add_exact_iff {ctx : Context} (hctx : ctx.Proper) {a b : Decimal} {x y : ℚ} (ha : a.toRat = some x)
    (hb : b.toRat = some y) : (∃ d, add ctx a b = some d ∧ d.toRat = some (x + y)) ↔ Fits ctx (x + y) := by
  obtain ⟨negative, c, e, hadd, hvalue⟩ := add_eq ctx ha hb
  rw [hadd]
  constructor
  · rintro ⟨d, hfix, hd⟩
    obtain ⟨q, hq, hfits⟩ := fix_fits hctx hfix
    rw [hd] at hq
    cases hq
    exact hfits
  · intro hfits
    rw [← hvalue] at hfits ⊢
    exact fix_exact hctx hfits

theorem negate_toRat {a : Decimal} {x : ℚ} (ha : a.toRat = some x) : a.negate.toRat = some (-x) := by
  cases a with
  | finite n c e =>
    cases ha
    cases n <;> simp [negate, toRat]
  | infinity => cases ha
  | nan      => cases ha

theorem sub_exact_iff {ctx : Context} (hctx : ctx.Proper) {a b : Decimal} {x y : ℚ} (ha : a.toRat = some x)
    (hb : b.toRat = some y) : (∃ d, sub ctx a b = some d ∧ d.toRat = some (x - y)) ↔ Fits ctx (x - y) := by
  rw [sub_eq_add_neg]
  exact add_exact_iff hctx ha (negate_toRat hb)

end Decimal
