import Nsl.Base.Text
/-!
# Calendar — dates and times of the proleptic Gregorian calendar

A `Date` is a day that exists; a `DateTime` is a day, a time of that day and, when it is aware, an offset from UTC. No two
of them are written alike (`Date.isoformat_inj`, `DateTime.isoformat_inj`).
-/
namespace Calendar

def isLeap (year : Nat) : Bool := year % 4 = 0 && (year % 100 ≠ 0 || year % 400 = 0)

def daysInMonth (year month : Nat) : Nat :=
  if month = 2 then (if isLeap year then 29 else 28)
  else if month = 4 ∨ month = 6 ∨ month = 9 ∨ month = 11 then 30
  else 31

/-- A day of the years 1 to 9999. -/
structure Date where
  year  : Nat
  month : Nat
  day   : Nat
  exists_ : (1 ≤ year ∧ year ≤ 9999) ∧ (1 ≤ month ∧ month ≤ 12) ∧ (1 ≤ day ∧ day ≤ daysInMonth year month)
  deriving DecidableEq

/-- A time of a day; `offset` is the distance from UTC in microseconds, none for a naive one. -/
structure DateTime where
  date        : Date
  hour        : Nat
  minute      : Nat
  second      : Nat
  microsecond : Nat
  offset      : Option Int
  clock       : hour < 24 ∧ minute < 60 ∧ second < 60 ∧ microsecond < 1000000
  within      : ∀ o, offset = some o → -86400000000 < o ∧ o < 86400000000
  deriving DecidableEq

def Date.make (year month day : Nat) : Option Date :=
  if h : (1 ≤ year ∧ year ≤ 9999) ∧ (1 ≤ month ∧ month ≤ 12) ∧ (1 ≤ day ∧ day ≤ daysInMonth year month) then
    some ⟨year, month, day, h⟩
  else none

/-! ## Writing -/

def Date.isoformat (d : Date) : String :=
  Text.zeroPad 4 d.year ++ "-" ++ Text.zeroPad 2 d.month ++ "-" ++ Text.zeroPad 2 d.day

/-- `+HH:MM[:SS[.ffffff]]` -/
def offsetText (o : Int) : String :=
  let a    := o.natAbs
  let secs := a / 1000000
  let base := (if o < 0 then "-" else "+") ++ Text.zeroPad 2 (secs / 3600) ++ ":" ++ Text.zeroPad 2 (secs / 60 % 60)
  if a % 1000000 ≠ 0 then base ++ ":" ++ Text.zeroPad 2 (secs % 60) ++ "." ++ Text.zeroPad 6 (a % 1000000)
  else if secs % 60 ≠ 0 then base ++ ":" ++ Text.zeroPad 2 (secs % 60)
  else base

def DateTime.isoformat (t : DateTime) : String :=
  t.date.isoformat ++ "T" ++ Text.zeroPad 2 t.hour ++ ":" ++ Text.zeroPad 2 t.minute ++ ":" ++ Text.zeroPad 2 t.second ++
    (if t.microsecond = 0 then "" else "." ++ Text.zeroPad 6 t.microsecond) ++
    (match t.offset with
      | none   => ""
      | some o => offsetText o)

/-- `utcoffset() == timedelta(0)` -/
def DateTime.isUtc (t : DateTime) : Bool := t.offset = some 0

/-- Where a UTC time stands among the others; `<` on these is `<` on the times. -/
def DateTime.stamp (t : DateTime) : Nat :=
  (((((t.date.year * 13 + t.date.month) * 32 + t.date.day) * 24 + t.hour) * 60 + t.minute) * 60 + t.second) * 1000000 +
    t.microsecond

/-! ## No two dates are written alike -/

theorem daysInMonth_le (year month : Nat) : daysInMonth year month ≤ 31 := by
  unfold daysInMonth
  split
  · split <;> omega
  · split <;> omega

/-- What follows a date is told apart from it. -/
theorem Date.isoformat_append_inj {d d' : Date} {t t' : String} (h : d.isoformat ++ t = d'.isoformat ++ t') :
    d = d' ∧ t = t' := by
  obtain ⟨year, month, day, hy, hm, hd⟩ := d
  obtain ⟨year', month', day', hy', hm', hd'⟩ := d'
  have hday : day ≤ 31 := Nat.le_trans hd.2 (daysInMonth_le year month)
  have hday' : day' ≤ 31 := Nat.le_trans hd'.2 (daysInMonth_le year' month')
  simp only [Date.isoformat, String.append_assoc] at h
  have hyear := Text.zeroPad_append_inj (by decide) (by omega) (by omega) h
  have hmonth := Text.zeroPad_append_inj (by decide) (by omega) (by omega) ((String.append_right_inj "-").1 hyear.2)
  have hrest := Text.zeroPad_append_inj (by decide) (by omega) (by omega) ((String.append_right_inj "-").1 hmonth.2)
  refine ⟨?_, hrest.2⟩
  rw [Date.mk.injEq]
  exact ⟨hyear.1, hmonth.1, hrest.1⟩

theorem Date.isoformat_inj {d d' : Date} (h : d.isoformat = d'.isoformat) : d = d' :=
  (Date.isoformat_append_inj (congrArg (· ++ "") h)).1

/-- The seconds of an offset, where it has some. -/
def offsetTail (a : Nat) : String :=
  if a % 1000000 ≠ 0 then ":" ++ (Text.zeroPad 2 (a / 1000000 % 60) ++ ("." ++ Text.zeroPad 6 (a % 1000000)))
  else if a / 1000000 % 60 ≠ 0 then ":" ++ Text.zeroPad 2 (a / 1000000 % 60)
  else ""

theorem offsetText_eq (o : Int) : offsetText o = (if o < 0 then "-" else "+") ++ (Text.zeroPad 2 (o.natAbs / 1000000 / 3600) ++
    (":" ++ (Text.zeroPad 2 (o.natAbs / 1000000 / 60 % 60) ++ offsetTail o.natAbs))) := by
  unfold offsetText offsetTail
  simp only
  split
  · simp only [String.append_assoc]
  · split
    · simp only [String.append_assoc]
    · simp only [String.append_assoc, String.append_empty]

theorem offsetTail_inj {a b : Nat} (h : offsetTail a = offsetTail b) :
    a / 1000000 % 60 = b / 1000000 % 60 ∧ a % 1000000 = b % 1000000 := by
  have hlength : ∀ n, (Text.zeroPad 2 (n / 1000000 % 60)).length = 2 := fun n =>
    Text.zeroPad_length (by decide) (Nat.lt_trans (Nat.mod_lt _ (by decide)) (by decide))
  have hsix : ∀ n, (Text.zeroPad 6 (n % 1000000)).length = 6 := fun n =>
    Text.zeroPad_length (by decide) (Nat.mod_lt _ (by decide))
  -- the three forms have 10, 3 and 0 characters
  have hlen := congrArg String.length h
  unfold offsetTail at h hlen
  by_cases ha : a % 1000000 = 0 <;> by_cases hb : b % 1000000 = 0
  · simp only [ha, hb, ne_eq, not_true_eq_false, if_false] at h hlen
    by_cases hsa : a / 1000000 % 60 = 0 <;> by_cases hsb : b / 1000000 % 60 = 0
    · exact ⟨hsa.trans hsb.symm, ha.trans hb.symm⟩
    · simp only [hsa, hsb, not_true_eq_false, not_false_eq_true, if_true, if_false, String.length_append, hlength] at hlen
      contradiction
    · simp only [hsa, hsb, not_true_eq_false, not_false_eq_true, if_true, if_false, String.length_append, hlength] at hlen
      contradiction
    · simp only [hsa, hsb, not_false_eq_true, if_true] at h
      rw [String.append_right_inj] at h
      exact ⟨Text.zeroPad_injective 2 h, ha.trans hb.symm⟩
  · exfalso
    simp only [ha, hb, ne_eq, not_true_eq_false, not_false_eq_true, if_true, if_false, String.length_append, hlength, hsix] at hlen
    split at hlen
    · rw [String.length_append, hlength] at hlen
      contradiction
    · contradiction
  · exfalso
    simp only [ha, hb, ne_eq, not_true_eq_false, not_false_eq_true, if_true, if_false, String.length_append, hlength, hsix] at hlen
    split at hlen
    · rw [String.length_append, hlength] at hlen
      contradiction
    · contradiction
  · simp only [ha, hb, ne_eq, not_false_eq_true, if_true] at h
    rw [String.append_right_inj] at h
    obtain ⟨hs, h⟩ := Text.append_split h (by rw [hlength, hlength])
    rw [String.append_right_inj] at h
    exact ⟨Text.zeroPad_injective 2 hs, Text.zeroPad_injective 6 h⟩

/-- The first character of an offset. -/
theorem offsetText_head (o : Int) : (offsetText o).toList.head? = some (if o < 0 then '-' else '+') := by
  rw [offsetText_eq, String.toList_append]
  split <;> rfl

theorem offsetText_inj {o p : Int} (ho : -86400000000 < o ∧ o < 86400000000) (hp : -86400000000 < p ∧ p < 86400000000)
    (h : offsetText o = offsetText p) : o = p := by
  have hsign : (if o < 0 then '-' else '+') = if p < 0 then '-' else '+' := by
    have hhead := congrArg (fun s => s.toList.head?) h
    simp only [offsetText_head] at hhead
    exact Option.some.inj hhead
  rw [offsetText_eq, offsetText_eq] at h
  have hmicro : o.natAbs / 1000000 < 86400 ∧ p.natAbs / 1000000 < 86400 := by omega
  obtain ⟨-, h⟩ := Text.append_split h (by split <;> split <;> rfl)
  obtain ⟨hhours, h⟩ := Text.zeroPad_append_inj (by decide) (by omega) (by omega) h
  rw [String.append_right_inj] at h
  obtain ⟨hminutes, h⟩ := Text.zeroPad_append_inj (by decide) (by omega) (by omega) h
  obtain ⟨hseconds, hrest⟩ := offsetTail_inj h
  have habs : o.natAbs = p.natAbs := by omega
  by_cases ho' : o < 0 <;> by_cases hp' : p < 0
  · omega
  · simp [ho', hp'] at hsign
  · simp [ho', hp'] at hsign
  · omega

/-- What follows the seconds: a fraction and an offset, each only where there is one. -/
def clockTail (microsecond : Nat) (offset : Option Int) : String :=
  (if microsecond = 0 then "" else "." ++ Text.zeroPad 6 microsecond) ++
    (match offset with
      | none   => ""
      | some o => offsetText o)

theorem clockTail_head (microsecond : Nat) (offset : Option Int) : (clockTail microsecond offset).toList.head? =
    if microsecond = 0 then offset.map (fun o => if o < 0 then '-' else '+') else some '.' := by
  unfold clockTail
  split
  · cases offset with
    | none   => rfl
    | some o =>
    rw [String.empty_append]
    exact offsetText_head o
  · rw [String.append_assoc, String.toList_append]
    rfl

theorem clockTail_inj {m n : Nat} {o p : Option Int} (hm : m < 1000000) (hn : n < 1000000)
    (ho : ∀ x, o = some x → -86400000000 < x ∧ x < 86400000000) (hp : ∀ x, p = some x → -86400000000 < x ∧ x < 86400000000)
    (h : clockTail m o = clockTail n p) : m = n ∧ o = p := by
  have hhead := congrArg (fun s => s.toList.head?) h
  simp only [clockTail_head] at hhead
  have hoffset : ∀ {o p : Option Int}, (∀ x, o = some x → -86400000000 < x ∧ x < 86400000000) →
      (∀ x, p = some x → -86400000000 < x ∧ x < 86400000000) → clockTail 0 o = clockTail 0 p → o = p := by
    intro o p ho hp h
    have hhead := congrArg (fun s => s.toList.head?) h
    simp only [clockTail_head] at hhead
    rcases o with _ | o <;> rcases p with _ | p
    · rfl
    · cases hhead
    · cases hhead
    · simp only [clockTail, if_true, String.empty_append] at h
      rw [offsetText_inj (ho o rfl) (hp p rfl) h]
  have hpoint : ∀ o : Option Int, o.map (fun o => if o < 0 then '-' else '+') ≠ some '.' := by
    rintro (_ | o) h
    · cases h
    · simp only [Option.map_some] at h
      split at h <;> cases h
  by_cases hm0 : m = 0 <;> by_cases hn0 : n = 0
  · subst hm0 hn0
    exact ⟨rfl, hoffset ho hp h⟩
  · rw [if_pos hm0, if_neg hn0] at hhead
    exact absurd hhead (hpoint o)
  · rw [if_neg hm0, if_pos hn0] at hhead
    exact absurd hhead.symm (hpoint p)
  · simp only [clockTail, if_neg hm0, if_neg hn0, String.append_assoc] at h
    rw [String.append_right_inj] at h
    obtain ⟨hmicro, h⟩ := Text.zeroPad_append_inj (by decide) hm hn h
    refine ⟨hmicro, hoffset ho hp ?_⟩
    simp only [clockTail, if_true, String.empty_append]
    exact h

/-- **No two times are written alike.** -/
theorem DateTime.isoformat_inj {t u : DateTime} (h : t.isoformat = u.isoformat) : t = u := by
  obtain ⟨date, hour, minute, second, micro, offset, hclock, hwithin⟩ := t
  obtain ⟨date', hour', minute', second', micro', offset', hclock', hwithin'⟩ := u
  have hparts : ∀ (d : Date) (a b c m : Nat) (o : Option Int) hc hw, DateTime.isoformat ⟨d, a, b, c, m, o, hc, hw⟩ =
      d.isoformat ++ ("T" ++ (Text.zeroPad 2 a ++ (":" ++ (Text.zeroPad 2 b ++ (":" ++ (Text.zeroPad 2 c ++ clockTail m o)))))) := by
    intros
    simp only [DateTime.isoformat, clockTail, String.append_assoc]
  rw [hparts, hparts] at h
  have hdate := Date.isoformat_append_inj h
  have hhour := Text.zeroPad_append_inj (by decide) (by omega) (by omega) ((String.append_right_inj "T").1 hdate.2)
  have hminute := Text.zeroPad_append_inj (by decide) (by omega) (by omega) ((String.append_right_inj ":").1 hhour.2)
  have hsecond := Text.zeroPad_append_inj (by decide) (by omega) (by omega) ((String.append_right_inj ":").1 hminute.2)
  have htail := clockTail_inj hclock.2.2.2 hclock'.2.2.2 hwithin hwithin' hsecond.2
  rw [DateTime.mk.injEq]
  exact ⟨hdate.1, hhour.1, hminute.1, hsecond.1, htail⟩

/-! ## Counting -/

def daysBeforeYear (year : Nat) : Nat :=
  let y := year - 1
  y * 365 + y / 4 - y / 100 + y / 400

def daysBeforeMonth (year month : Nat) : Nat :=
  (List.range (month - 1)).foldl (fun days m => days + daysInMonth year (m + 1)) 0

/-- `toordinal` -/
def Date.ordinal (d : Date) : Nat := daysBeforeYear d.year + daysBeforeMonth d.year d.month + d.day

/-- The ordinal of the last day of the year 9999. -/
def MAX_ORDINAL : Nat := 3652059

/-- The microseconds of the clock on the wall, since the day before the first. -/
def DateTime.wall (t : DateTime) : Nat :=
  (t.date.ordinal * 86400 + t.hour * 3600 + t.minute * 60 + t.second) * 1000000 + t.microsecond

/-- The instant an aware time stands for, in microseconds. -/
def DateTime.instant (t : DateTime) : Int := t.wall - t.offset.getD 0

/-! ## The days after -/

/-- The next day, unless there is none before the year 10000. -/
def Date.next (d : Date) : Option Date :=
  ((Date.make d.year d.month (d.day + 1)).or (Date.make d.year (d.month + 1) 1)).or (Date.make (d.year + 1) 1 1)

def Date.plusDays : Nat → Date → Option Date
  | 0, d     => some d
  | n + 1, d => d.next.bind (Date.plusDays n)

/-- `t + timedelta(days=n)`, by the clock on the wall. -/
def DateTime.plusDays (t : DateTime) (n : Nat) : Option DateTime := (t.date.plusDays n).map (fun d => { t with date := d })

end Calendar
