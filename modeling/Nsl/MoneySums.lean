import Mathlib.Algebra.BigOperators.Group.List.Basic
import Mathlib.Algebra.Order.BigOperators.Group.List
import Mathlib.Data.List.Perm.Subperm
import Mathlib.Tactic.NormNum.Eq
import Mathlib.Tactic.NormNum.Inv
import Mathlib.Tactic.NormNum.Pow
import Nsl.Base.Arithmetic
import Nsl.Runtime
/-!
# MoneySums — sums of money

Amounts are added in Python's default context: 28 digits, rounded half to even. A sum of money is exact exactly when its
value fits there, and so is a fold over a list as long as each of its partial sums does (`sumMoney_exact_iff`). Then the
order of the list does not matter. Beyond 28 digits it does.
-/
namespace Nsl

/-- `decimal.DefaultContext` -/
def defaultContext : Decimal.Context := ⟨28, -999999, 999999⟩

theorem defaultContext_proper : defaultContext.Proper := ⟨by decide, by decide⟩

/-- The value can be written in the default context. -/
abbrev Fits (q : ℚ) : Prop := Decimal.Fits defaultContext q

namespace Money

/-- An operation on the amounts of one currency. -/
def combine (op : Decimal.Context → Decimal → Decimal → Option Decimal) (a b : Money) : Except Exn Money :=
  -- `_require_currency`
  if a.currency ≠ b.currency then .error (.money ("currency mismatch: " ++ a.currency ++ " != " ++ b.currency))
  else
    match op defaultContext a.amount b.amount with
    | some amount => Money.make amount a.currency
    | none        => .error (.arithmetic "[<class 'decimal.Overflow'>]")

/-- `__add__` -/
def add : Money → Money → Except Exn Money := combine Decimal.add

/-- `__sub__` -/
def sub : Money → Money → Except Exn Money := combine Decimal.sub

theorem make_exceptions {amount : Decimal} {currency : String} {e : Exn} (h : Money.make amount currency = .error e) :
    e.isException = true := by
  unfold Money.make at h
  split at h
  · split at h
    · cases h
    · split at h <;> cases h <;> rfl
  · cases h
    rfl

theorem combine_exceptions {op : Decimal.Context → Decimal → Decimal → Option Decimal} {a b : Money} {e : Exn}
    (h : combine op a b = .error e) : e.isException = true := by
  unfold combine at h
  split at h
  · cases h
    rfl
  · split at h
    · exact make_exceptions h
    · cases h
      rfl

/-- The exact value of an amount. -/
def value (m : Money) : ℚ := m.amount.toRat.getD 0

theorem amount_toRat (m : Money) : m.amount.toRat = some m.value := by
  obtain ⟨amount, currency, hfinite, hcode⟩ := m
  cases amount with
  | finite n c e => rfl
  | infinity     => cases hfinite
  | nan          => cases hfinite

theorem make_ok {amount : Decimal} {currency : String} (hf : amount.isFinite = true) (hc : isCurrencyCode currency = true) :
    Money.make amount currency = .ok ⟨amount, currency, hf, hc⟩ := by
  rw [Money.make, dif_pos hf, dif_pos hc]

/-- A computation gives money of this value. -/
def Exactly (currency : String) (q : ℚ) (r : Except Exn Money) : Prop :=
  ∃ m, r = .ok m ∧ m.currency = currency ∧ m.value = q

theorem combine_exactly {op : Decimal.Context → Decimal → Decimal → Option Decimal} {a b : Money}
    (hcurrency : a.currency = b.currency) (q : ℚ) :
    Exactly a.currency q (combine op a b) ↔ ∃ d, op defaultContext a.amount b.amount = some d ∧ d.toRat = some q := by
  unfold combine
  rw [if_neg (not_not.2 hcurrency)]
  constructor
  · rintro ⟨m, hmade, -, hvalue⟩
    cases hop : op defaultContext a.amount b.amount with
    | none => rw [hop] at hmade; cases hmade
    | some d =>
      rw [hop] at hmade
      simp only [Money.make] at hmade
      split at hmade
      · rw [dif_pos a.code] at hmade
        cases hmade
        exact ⟨d, rfl, hvalue ▸ amount_toRat ⟨d, a.currency, _, a.code⟩⟩
      · cases hmade
  · rintro ⟨d, hop, hvalue⟩
    have hfinite : d.isFinite = true := by
      cases d with
      | finite   => rfl
      | infinity => cases hvalue
      | nan      => cases hvalue
    refine ⟨⟨d, a.currency, hfinite, a.code⟩, ?_, rfl, ?_⟩
    · rw [hop]
      exact make_ok hfinite a.code
    · rw [value, hvalue]
      rfl

/-- **A sum of money is exact exactly when its value fits.** -/
theorem add_exactly {a b : Money} (h : a.currency = b.currency) :
    Exactly a.currency (a.value + b.value) (a.add b) ↔ Fits (a.value + b.value) :=
  (combine_exactly h _).trans (Decimal.add_exact_iff defaultContext_proper a.amount_toRat b.amount_toRat)

theorem sub_exactly {a b : Money} (h : a.currency = b.currency) :
    Exactly a.currency (a.value - b.value) (a.sub b) ↔ Fits (a.value - b.value) :=
  (combine_exactly h _).trans (Decimal.sub_exact_iff defaultContext_proper a.amount_toRat b.amount_toRat)

/-- What was added can be taken away again. -/
theorem add_sub_cancel {a b : Money} (h : a.currency = b.currency) (ha : Fits a.value) (hsum : Fits (a.value + b.value)) :
    ∃ s, a.add b = .ok s ∧ Exactly a.currency a.value (s.sub b) := by
  obtain ⟨s, hadd, hcurrency, hvalue⟩ := (add_exactly h).2 hsum
  have hback : s.value - b.value = a.value := by rw [hvalue, add_sub_cancel_right]
  have hsub := (sub_exactly (hcurrency.trans h)).2 (hback.symm ▸ ha)
  rw [hback, hcurrency] at hsub
  exact ⟨s, hadd, hsub⟩

end Money

namespace Operators

/-- `+` and `-` of two moneys are those of `Money`. -/
def withMoney (base : Operators) : Operators where
  apply o v w :=
    match o, v, w with
    | "ADD", .money a, .money b => (a.add b).map .money
    | "SUB", .money a, .money b => (a.sub b).map .money
    | _, _, _                   => base.apply o v w
  exceptions := by
    intro o v w e h
    split at h
    · rename_i a b
      cases hadd : a.add b with
      | ok _    => rw [hadd] at h; cases h
      | error _ => rw [hadd] at h; cases h; exact Money.combine_exceptions hadd
    · rename_i a b
      cases hsub : a.sub b with
      | ok _    => rw [hsub] at h; cases h
      | error _ => rw [hsub] at h; cases h; exact Money.combine_exceptions hsub
    · exact base.exceptions _ _ _ _ h

end Operators

/-! ## Lists of money -/

/-- The exact sum of a list. -/
def exactSum (ms : List Money) : ℚ := (ms.map Money.value).sum

/-- The sum of a list has this value. -/
def SumsTo (base : Operators) (currency : String) (ms : List Money) (q : ℚ) : Prop :=
  ∃ m : Money, sumMoney base.withMoney (.list (ms.map .money)) currency = .ok (.money m) ∧ m.currency = currency ∧ m.value = q

/-- The fold of `sum_money` from a total. -/
def sumFrom (total : Money) (ms : List Money) : Except Exn Money := ms.foldlM Money.add total

theorem sumMoney_eq (base : Operators) {currency : String} (hcode : isCurrencyCode currency = true) (ms : List Money) :
    sumMoney base.withMoney (.list (ms.map .money)) currency =
      (sumFrom ⟨.finite false 0 0, currency, rfl, hcode⟩ ms).map .money := by
  -- what the loop does with items that are money
  have hfold : ∀ {f : Value → Value → Except Exn Value}, (∀ total m, f total (.money m) = base.withMoney.apply "ADD" total (.money m)) →
      ∀ (l : List Money) (total : Money), (l.map Value.money).foldlM f (.money total) = (sumFrom total l).map .money := by
    intro f hf l
    induction l with
    | nil => intro total; rfl
    | cons m l ih =>
      intro total
      rw [List.map_cons, List.foldlM_cons, sumFrom, List.foldlM_cons, hf]
      show ((total.add m).map Value.money >>= _) = (total.add m >>= _).map Value.money
      cases total.add m with
      | error _ => rfl
      | ok s    => exact ih s
  unfold sumMoney
  rw [Money.make_ok rfl hcode]
  refine hfold ?_ ms _
  intro total m
  rfl

theorem sumFrom_cons {total m s : Money} (h : total.add m = .ok s) (ms : List Money) :
    sumFrom total (m :: ms) = sumFrom s ms := by
  rw [sumFrom, List.foldlM_cons, h]
  rfl

theorem exactSum_cons (m : Money) (ms : List Money) : exactSum (m :: ms) = m.value + exactSum ms := by
  rw [exactSum, List.map_cons, List.sum_cons]
  rfl

theorem exactSum_perm {ms ns : List Money} (h : ms.Perm ns) : exactSum ms = exactSum ns := (h.map Money.value).sum_eq

/-- **A fold of sums is exact up to each of its items exactly when each partial sum fits.** -/
theorem sumFrom_exactly {currency : String} {ms : List Money} (hall : ∀ m ∈ ms, m.currency = currency) :
    ∀ (total : Money), total.currency = currency → Fits total.value →
      ((∀ l, l <+: ms → Money.Exactly currency (total.value + exactSum l) (sumFrom total l)) ↔
        ∀ l, l <+: ms → Fits (total.value + exactSum l)) := by
  induction ms with
  | nil =>
    intro total hcurrency htotal
    refine ⟨fun _ l hl => ?_, fun _ l hl => ?_⟩
    all_goals
      obtain rfl := List.prefix_nil.1 hl
      rw [exactSum, List.map_nil, List.sum_nil, add_zero]
    · exact htotal
    · exact ⟨total, rfl, hcurrency, rfl⟩
  | cons m ms ih =>
    intro total hcurrency htotal
    have hm : total.currency = m.currency := hcurrency.trans (hall m List.mem_cons_self).symm
    have hone : [m] <+: m :: ms := List.cons_prefix_cons.2 ⟨rfl, List.nil_prefix⟩
    have hfirst : exactSum [m] = m.value := by rw [exactSum_cons, exactSum, List.map_nil, List.sum_nil, add_zero]
    have hnil : total.value + exactSum [] = total.value := by rw [exactSum, List.map_nil, List.sum_nil, add_zero]
    -- after the first item the fold goes on from its sum
    have hrest : ∀ {s : Money}, s.value = total.value + m.value →
        ∀ l, s.value + exactSum l = total.value + exactSum (m :: l) := by
      intro s hs l
      rw [hs, exactSum_cons, add_assoc]
    have ihms := ih (fun n hn => hall n (List.mem_cons_of_mem m hn))
    constructor
    · intro hexact l hl
      have hadd := hexact [m] hone
      rw [hfirst] at hadd
      have hadd' : Money.Exactly total.currency (total.value + m.value) (total.add m) := by
        rw [hcurrency]
        cases hsum : total.add m with
        | ok s    => rwa [sumFrom_cons hsum] at hadd
        | error e =>
          rw [sumFrom, List.foldlM_cons, hsum] at hadd
          obtain ⟨s, hs, -⟩ := hadd
          cases hs
      have hfits := (Money.add_exactly hm).1 hadd'
      obtain ⟨s, hs, hscurrency, hsvalue⟩ := hadd'
      rw [hcurrency] at hscurrency
      rcases List.prefix_cons_iff.1 hl with rfl | ⟨t, rfl, ht⟩
      · rwa [hnil]
      · rw [← hrest hsvalue]
        refine (ihms s hscurrency (hsvalue ▸ hfits)).1 (fun l hl => ?_) t ht
        rw [hrest hsvalue, ← sumFrom_cons hs]
        exact hexact _ (List.cons_prefix_cons.2 ⟨rfl, hl⟩)
    · intro hfits l hl
      have hsum := hfits [m] hone
      rw [hfirst] at hsum
      obtain ⟨s, hs, hscurrency, hsvalue⟩ := (Money.add_exactly hm).2 hsum
      rw [hcurrency] at hscurrency
      rcases List.prefix_cons_iff.1 hl with rfl | ⟨t, rfl, ht⟩
      · rw [hnil]
        exact ⟨total, rfl, hcurrency, rfl⟩
      · rw [← hrest hsvalue, sumFrom_cons hs]
        refine (ihms s hscurrency (hsvalue ▸ hsum)).2 (fun l hl => ?_) t ht
        rw [hrest hsvalue]
        exact hfits _ (List.cons_prefix_cons.2 ⟨rfl, hl⟩)

/-- A zero fits. -/
theorem fits_zero : Fits 0 := ⟨0, 0, by simp, by decide, by decide, by decide⟩

theorem sumsTo_iff (base : Operators) {currency : String} (hcode : isCurrencyCode currency = true) (ms : List Money) (q : ℚ) :
    SumsTo base currency ms q ↔ Money.Exactly currency q (sumFrom ⟨.finite false 0 0, currency, rfl, hcode⟩ ms) := by
  unfold SumsTo Money.Exactly
  rw [sumMoney_eq base hcode]
  cases sumFrom ⟨.finite false 0 0, currency, rfl, hcode⟩ ms with
  | ok m    => simp [Except.map]
  | error e => simp [Except.map]

/-- **The sum of every prefix of a list is exact exactly when the value of each fits.** -/
theorem sumsTo_prefixes (base : Operators) {currency : String} (hcode : isCurrencyCode currency = true) {ms : List Money}
    (hall : ∀ m ∈ ms, m.currency = currency) :
    (∀ l, l <+: ms → SumsTo base currency l (exactSum l)) ↔ ∀ l, l <+: ms → Fits (exactSum l) := by
  have hzero : (⟨.finite false 0 0, currency, rfl, hcode⟩ : Money).value = 0 := by simp [Money.value, Decimal.toRat]
  have hfold := sumFrom_exactly hall ⟨.finite false 0 0, currency, rfl, hcode⟩ rfl (hzero ▸ fits_zero)
  simp only [hzero, zero_add] at hfold
  simp only [sumsTo_iff base hcode]
  exact hfold

/-- **Where every sum of some of the items fits, the order of the list does not matter.** -/
theorem sumsTo_perm (base : Operators) {currency : String} (hcode : isCurrencyCode currency = true) {ms : List Money}
    (hall : ∀ m ∈ ms, m.currency = currency) (hfits : ∀ l, l.Subperm ms → Fits (exactSum l)) {ns : List Money}
    (hperm : ns.Perm ms) : SumsTo base currency ns (exactSum ms) := by
  rw [← exactSum_perm hperm]
  refine (sumsTo_prefixes base hcode (fun m hm => hall m (hperm.subset hm))).2 (fun l hl => ?_) ns List.prefix_rfl
  exact hfits l (hl.sublist.subperm.trans hperm.subperm)

/-- The amounts are whole numbers of one unit. -/
def InUnits (unit : Int) (count : Money → Int) (ms : List Money) : Prop := ∀ m ∈ ms, m.value = count m * (10 : ℚ) ^ unit

theorem exactSum_inUnits {unit : Int} {count : Money → Int} {ms : List Money} (h : InUnits unit count ms) :
    exactSum ms = (ms.map count).sum * (10 : ℚ) ^ unit := by
  induction ms with
  | nil          => simp [exactSum]
  | cons m ms ih =>
    rw [exactSum_cons, h m List.mem_cons_self, ih (fun n hn => h n (List.mem_cons_of_mem m hn)), List.map_cons,
      List.sum_cons, Int.cast_add, add_mul]

theorem natAbs_sum_le (ns : List Int) : ns.sum.natAbs ≤ (ns.map Int.natAbs).sum := by
  induction ns with
  | nil          => rfl
  | cons n ns ih =>
    rw [List.map_cons, List.sum_cons, List.sum_cons]
    exact (Int.natAbs_add_le n ns.sum).trans (Nat.add_le_add_left ih _)

/-- **Amounts of at most 28 digits together fit in every order.** -/
theorem fits_inUnits {unit : Int} {count : Money → Int} {ms : List Money} (h : InUnits unit count ms)
    (htotal : ((ms.map count).map Int.natAbs).sum < 10 ^ 28) (hleast : -1000026 ≤ unit) (hgreat : unit ≤ 999972) :
    ∀ l, l.Subperm ms → Fits (exactSum l) := by
  rintro l ⟨t, hperm, hsub⟩
  rw [← exactSum_perm hperm, exactSum_inUnits (fun m hm => h m (hsub.subset hm))]
  refine ⟨_, unit, rfl, lt_of_le_of_lt ?_ htotal, hleast, hgreat⟩
  exact (natAbs_sum_le _).trans (((hsub.map count).map Int.natAbs).sum_le_sum (fun _ _ => Nat.zero_le _))

/-- **When money is added exactly.** The sums of a list and of each part of it at its head are the exact ones exactly when
each of these values has at most 28 digits; sums that fit in every order do not depend on the order; one sum or difference is
exact exactly when it fits; and `(a + b) - b` is `a` again where `a` and `a + b` fit. -/
theorem money_sums_exact (base : Operators) (currency : String) (hcode : isCurrencyCode currency = true) :
    (∀ ms : List Money, (∀ m ∈ ms, m.currency = currency) →
      ((∀ l, l <+: ms → SumsTo base currency l (exactSum l)) ↔ ∀ l, l <+: ms → Fits (exactSum l)) ∧
      ((∀ l, l.Subperm ms → Fits (exactSum l)) → ∀ ns, ns.Perm ms → SumsTo base currency ns (exactSum ms))) ∧
    (∀ a b : Money, a.currency = currency → b.currency = currency →
      (Money.Exactly currency (a.value + b.value) (a.add b) ↔ Fits (a.value + b.value)) ∧
      (Money.Exactly currency (a.value - b.value) (a.sub b) ↔ Fits (a.value - b.value)) ∧
      (Fits a.value → Fits (a.value + b.value) → ∃ s, a.add b = .ok s ∧ Money.Exactly currency a.value (s.sub b))) := by
  refine ⟨fun ms hall => ⟨sumsTo_prefixes base hcode hall, fun hfits ns hperm => sumsTo_perm base hcode hall hfits hperm⟩,
    fun a b ha hb => ?_⟩
  subst ha
  exact ⟨Money.add_exactly hb.symm, Money.sub_exactly hb.symm, Money.add_sub_cancel hb.symm⟩

/-- An amount in Korean won. -/
def won (c : Nat) (e : Int) : Money := ⟨.finite false c e, "KRW", rfl, by decide⟩

/-- A fee and a price: one after the other in both orders. -/
theorem won_sums_exact :
    SumsTo Env.bare.operators "KRW" [won 5 (-1), won 100 0] (exactSum [won 100 0, won 5 (-1)]) ∧
    ∃ s, (won 100 0).add (won 5 (-1)) = .ok s ∧ Money.Exactly "KRW" (won 100 0).value (s.sub (won 5 (-1))) := by
  have hexact := money_sums_exact Env.bare.operators "KRW" (by decide)
  have hprice : (won 100 0).value = (1000 : Int) * 10 ^ (-1 : Int) := by norm_num [Money.value, won, Decimal.toRat]
  have hfee : (won 5 (-1)).value = (5 : Int) * 10 ^ (-1 : Int) := by norm_num [Money.value, won, Decimal.toRat]
  have htenths : InUnits (-1) (fun m => if m = won 5 (-1) then 5 else 1000) [won 100 0, won 5 (-1)] := by
    intro m hm
    rcases List.mem_cons.1 hm with rfl | hm
    · exact hprice
    · rw [List.mem_singleton.1 hm]
      exact hfee
  have hfits := fits_inUnits htenths (by decide) (by decide) (by decide)
  have hone : ∀ m, exactSum [m] = m.value := fun m => by rw [exactSum_cons, exactSum, List.map_nil, List.sum_nil, add_zero]
  refine ⟨(hexact.1 _ (by decide)).2 hfits _ (List.Perm.swap ..), (hexact.2 _ _ rfl rfl).2.2 ?_ ?_⟩
  · rw [← hone]
    exact hfits _ (List.Sublist.subperm (by decide))
  · rw [← hone (won 5 (-1)), ← exactSum_cons]
    exact hfits _ (List.Subperm.refl _)

/-- **10^28 and two fives**: one by one the fives are lost, and together they are not. -/
theorem sumMoney_inexact :
    sumMoney Env.bare.operators.withMoney (.list [.money (won 1 28), .money (won 5 0), .money (won 5 0)]) "KRW" =
      .ok (.money (won (10 ^ 27) 1)) ∧
    sumMoney Env.bare.operators.withMoney (.list [.money (won 5 0), .money (won 5 0), .money (won 1 28)]) "KRW" =
      .ok (.money (won (10 ^ 27 + 1) 1)) ∧
    (won (10 ^ 27) 1).value ≠ (won (10 ^ 27 + 1) 1).value ∧
    ((won 5 (-1)).add (won 1 28)).bind (fun s => s.sub (won 1 28)) = .ok (won 0 1) := by
  refine ⟨by decide +kernel, by decide +kernel, ?_, by decide +kernel⟩
  norm_num [Money.value, won, Decimal.toRat]

end Nsl
