import IronStock.Lib.TimeLayouts
import IronStock.Lib.TimestampText

/-!
# The expiry of a client certificate

`not_after` comes out of the database as text, and `ValidateCertForUser` tries six
layouts on it. The one with a zone asks for the minutes of the offset, which are
printed only where the offset is no whole number of hours.
-/
namespace IronStock

open CivilTime Decimals TimestampText TimeLayouts

/-! ## Layouts -/

/-- A date and a time of day, with what stands between and after them. -/
def dateTimeLayout (sep : Chunk) (tail : List Chunk) : List Chunk :=
  .longYear :: .literal '-' :: .zeroMonth :: .literal '-' :: .zeroDay :: sep ::
    .hour :: .literal ':' :: .zeroMinute :: .literal ':' :: .zeroSecond :: tail

/-- The layouts of `ValidateCertForUser`, in their order. -/
def notAfterLayouts : List (List Chunk) :=
  [dateTimeLayout .blank [.numColonTZ],
    dateTimeLayout .blank [.literal '+', .literal '0', .literal '0'],
    dateTimeLayout .blank [.literal 'Z'],
    dateTimeLayout (.literal 'T') [.iso8601ColonTZ],
    dateTimeLayout (.literal 'T') [.fracSecond9, .iso8601ColonTZ],
    dateTimeLayout (.literal 'T') [.literal 'Z']]

example : notAfterLayouts.map (fun layout => String.ofList (layout.flatMap Chunk.text)) =
    ["2006-01-02 15:04:05-07:00", "2006-01-02 15:04:05+00", "2006-01-02 15:04:05Z",
      "2006-01-02T15:04:05Z07:00", "2006-01-02T15:04:05.999999999Z07:00",
      "2006-01-02T15:04:05Z"] := by decide

/-- The first layout that fits decides; the instant is in nanoseconds. -/
def parseNotAfter (text : List Char) : Option Int :=
  notAfterLayouts.findSome? (parse · text)

/-! ## The date and the time of day -/

/-- What every layout reads of a date and a time of day. -/
def wallFields (c : DateTime) : Fields where
  year := yearOfEra c.year
  month := c.month
  day := c.day
  hour := c.hour
  minute := c.minute
  second := c.second
  nsec := c.micro * 1000

theorem day_lt_hundred (c : DateTime) : c.day < 100 := by
  obtain ⟨-, -, -, hlast⟩ := c.isDate
  have hmax := daysIn_le c.year c.month
  omega

/-- Seconds are read with their fraction, up to the sign of the offset. -/
theorem run_seconds {tail : List Chunk} (htail : nextStdChunk tail ≠ some .fracSecond9)
    (f : Fields) (hf : f.nsec = 0) {n micro : Nat} (hn : n < 60) (hmicro : micro < 1000000)
    {sign : Char} (hsign : sign = '+' ∨ sign = '-') (rest : List Char) :
    run (.zeroSecond :: tail) f (digits 2 n ++ (fractionText micro ++ sign :: rest)) =
      run tail { f with second := n, nsec := micro * 1000 } (sign :: rest) := by
  rw [run_zeroSecond _ _ _ hn htail]
  have hdigit : sign.isDigit = false := by rcases hsign with rfl | rfl <;> rfl
  have hpoint : sign ≠ '.' ∧ sign ≠ ',' := by rcases hsign with rfl | rfl <;> decide
  rcases Nat.eq_zero_or_pos micro with rfl | hpos
  · rw [fractionText, if_pos rfl, List.nil_append, fraction_eq_none hpoint, Nat.zero_mul, ← hf]
  · have hne : trimmed 6 micro ≠ [] := trimmed_ne_nil hmicro (Nat.pos_iff_ne_zero.mp hpos)
    rw [fractionText, if_neg (Nat.pos_iff_ne_zero.mp hpos), List.cons_append,
      fraction_digits (Or.inl rfl) hdigit (fun d => isDigit_of_mem_trimmed) hne,
      parseNanoseconds_trimmed (by omega) hmicro]
    rfl

/-- Up to the offset a layout with a blank reads every year of four digits. -/
theorem run_dateTimeLayout_blank {tail : List Chunk}
    (htail : nextStdChunk tail ≠ some .fracSecond9) {z : Zoned}
    (hyear : yearOfEra z.wall.year < 10 ^ 4) :
    run (dateTimeLayout .blank tail) {} z.text =
      run tail (wallFields z.wall) (offsetText z.offset ++ eraText z.wall.year) := by
  obtain ⟨hmonth, htwelve, -, -⟩ := z.wall.isDate
  have hhour := z.wall.hour_lt
  have hminute := z.wall.minute_lt
  have hsecond := z.wall.second_lt
  have hday := day_lt_hundred z.wall
  obtain ⟨sign, rest, hsign, hoffset⟩ := offsetText_eq_cons z.offset
  rw [Zoned.text, dateTimeLayout, run_longYear _ _ _ hyear, run_literal,
    zeropad_eq_digits (by omega) (show z.wall.month < 10 ^ 2 by omega),
    run_zeroMonth _ _ _ hmonth htwelve, run_literal,
    zeropad_eq_digits (by omega) (show z.wall.day < 10 ^ 2 by omega), run_zeroDay _ _ _ hday,
    zeropad_eq_digits (by omega) (show z.wall.hour < 10 ^ 2 by omega), run_blank_digits,
    run_hour _ _ _ hhour, run_literal,
    zeropad_eq_digits (by omega) (show z.wall.minute < 10 ^ 2 by omega),
    run_zeroMinute _ _ _ hminute, run_literal,
    zeropad_eq_digits (by omega) (show z.wall.second < 10 ^ 2 by omega), hoffset,
    List.cons_append, run_seconds htail _ rfl hsecond z.wall.micro_lt hsign]
  rfl

/-- The date ends at a blank, where RFC 3339 has a letter. -/
theorem run_dateTimeLayout_letter {tail : List Chunk} {z : Zoned}
    (hyear : yearOfEra z.wall.year < 10 ^ 4) :
    run (dateTimeLayout (.literal 'T') tail) {} z.text = none := by
  obtain ⟨hmonth, htwelve, -, -⟩ := z.wall.isDate
  have hday := day_lt_hundred z.wall
  rw [Zoned.text, dateTimeLayout, run_longYear _ _ _ hyear, run_literal,
    zeropad_eq_digits (by omega) (show z.wall.month < 10 ^ 2 by omega),
    run_zeroMonth _ _ _ hmonth htwelve, run_literal,
    zeropad_eq_digits (by omega) (show z.wall.day < 10 ^ 2 by omega), run_zeroDay _ _ _ hday,
    run_literal_ne _ _ _ (by decide)]

/-- Five digits of a year fit no layout. -/
theorem run_dateTimeLayout_long {sep : Chunk} {tail : List Chunk} {z : Zoned}
    (hyear : 10 ^ 4 ≤ yearOfEra z.wall.year) :
    run (dateTimeLayout sep tail) {} z.text = none :=
  run_longYear_cut _ _ _ hyear rfl

/-! ## The offset -/

/-- The offset is printed by its hours and minutes. -/
def HasMinutes (offset : Int) : Prop := offset % 60 = 0 ∧ offset % 3600 ≠ 0

instance (offset : Int) : Decidable (HasMinutes offset) := inferInstanceAs (Decidable (_ ∧ _))

theorem signed_natAbs (offset : Int) :
    (if (if offset < 0 then '-' else '+') = '-' then (-1 : Int) else 1) * offset.natAbs =
      offset := by
  by_cases h : offset < 0
  · rw [if_pos h, if_pos rfl]
    omega
  · rw [if_neg h, if_neg (by decide)]
    omega

theorem eraText_eq_nil {year : Int} : eraText year = [] ↔ 0 < year := by
  unfold eraText
  split <;> simp [*]

theorem eraText_head? (year : Int) (c : Char) (h : c ≠ ' ') :
    (eraText year).head? ≠ some c := by
  unfold eraText
  split
  · exact nofun
  · rintro ⟨⟩
    exact h rfl

/-- The layout with a zone fits an offset of hours and minutes. -/
theorem run_numColonTZ (z : Zoned) (f : Fields) :
    run [.numColonTZ] f (offsetText z.offset ++ eraText z.wall.year) =
      if HasMinutes z.offset ∧ 0 < z.wall.year then some { f with zoneOffset := z.offset }
      else none := by
  have hhours := offset_hours_lt z
  have hminutes : z.offset.natAbs / 60 % 60 < 60 := Nat.mod_lt _ (by omega)
  have hsigned := signed_natAbs z.offset
  generalize hsign : (if z.offset < 0 then '-' else '+') = sign at hsigned
  have hpm : sign = '+' ∨ sign = '-' := by
    rw [← hsign]
    split
    · exact Or.inr rfl
    · exact Or.inl rfl
  rw [run_cons, step, offsetText, hsign,
    zeropad_eq_digits (by omega) (show z.offset.natAbs / 3600 < 10 ^ 2 by omega),
    zeropad_eq_digits (by omega) (show z.offset.natAbs / 60 % 60 < 10 ^ 2 by omega)]
  by_cases hseconds : z.offset.natAbs % 60 ≠ 0
  · -- the seconds are left over
    have hnot : ¬ (HasMinutes z.offset ∧ 0 < z.wall.year) := by
      rintro ⟨⟨hmod, -⟩, -⟩
      omega
    rw [if_pos hseconds, if_neg hnot, List.cons_append, List.append_assoc, List.cons_append,
      List.append_assoc, zone_digits hpm (by omega) (by omega)]
    rfl
  · rw [if_neg hseconds]
    by_cases hzero : z.offset.natAbs / 60 % 60 ≠ 0
    · have hmins : HasMinutes z.offset := ⟨by omega, by omega⟩
      have hvalue : ((z.offset.natAbs / 3600 : Nat) * 60 + (z.offset.natAbs / 60 % 60 : Nat)) * 60 =
          (z.offset.natAbs : Int) := by omega
      rw [if_pos hzero, List.cons_append, List.append_assoc, List.cons_append,
        zone_digits hpm (by omega) (by omega), hvalue, hsigned]
      simp only [Option.map_some, Option.bind_some, run_nil, eraText_eq_nil, hmins, true_and]
    · -- hours alone
      have hnot : ¬ (HasMinutes z.offset ∧ 0 < z.wall.year) := by
        rintro ⟨⟨-, hmod⟩, -⟩
        omega
      rw [if_neg hzero, if_neg hnot, List.append_nil, List.cons_append,
        zone_hours _ _ (eraText_head? _ _ (by decide))]
      rfl

theorem run_two_zeros {n : Nat} (h : n < 100) (f : Fields) (cs : List Char) :
    run [.literal '0', .literal '0'] f (digits 2 n ++ cs) =
      if n = 0 then run [] f cs else none := by
  rw [digits_two]
  by_cases htens : n / 10 % 10 = 0
  · by_cases hones : n % 10 = 0
    · have hn : n = 0 := by omega
      rw [hn]
      simp only [if_true]
      exact (run_literal _ _ _ _).trans (run_literal _ _ _ _)
    · have hn : n ≠ 0 := by omega
      rw [htens, if_neg hn]
      refine (run_literal _ _ _ _).trans (run_literal_ne _ _ _ ?_)
      rwa [ne_eq, digit_eq_zero (Nat.mod_lt _ (by omega))]
  · have hn : n ≠ 0 := by omega
    rw [if_neg hn]
    refine run_literal_ne _ _ _ ?_
    rwa [ne_eq, digit_eq_zero (Nat.mod_lt _ (by omega))]

/-- The layout for UTC fits no other offset. -/
theorem run_utc (z : Zoned) (f : Fields) :
    run [.literal '+', .literal '0', .literal '0'] f (offsetText z.offset ++ eraText z.wall.year) =
      if z.offset = 0 ∧ 0 < z.wall.year then some f else none := by
  have hhours := offset_hours_lt z
  rw [offsetText, List.cons_append, List.append_assoc,
    zeropad_eq_digits (by omega) (show z.offset.natAbs / 3600 < 10 ^ 2 by omega)]
  by_cases hneg : z.offset < 0
  · have hnot : ¬ (z.offset = 0 ∧ 0 < z.wall.year) := by omega
    rw [if_pos hneg, if_neg hnot]
    exact run_literal_ne _ _ _ (by decide)
  · rw [if_neg hneg, run_literal, run_two_zeros (by omega)]
    by_cases hoffset : z.offset = 0
    · rw [hoffset]
      simp [eraText_eq_nil]
    · have hnot : ¬ (z.offset = 0 ∧ 0 < z.wall.year) := fun h => hoffset h.1
      rw [if_neg hnot]
      split
      case isFalse => rfl
      case isTrue hzero =>
        split
        case isTrue => rfl
        case isFalse hseconds =>
          rw [if_pos (by omega)]
          rfl

/-! ## The text as a whole -/

/-- A text that one of the layouts fits: a year of four digits, and an offset that
is zero or has minutes but no seconds. -/
def LayoutFits (z : Zoned) : Prop :=
  0 < z.wall.year ∧ z.wall.year < 10000 ∧ (z.offset = 0 ∨ HasMinutes z.offset)

instance (z : Zoned) : Decidable (LayoutFits z) := inferInstanceAs (Decidable (_ ∧ _ ∧ _))

/-- What was read is the instant that was shown. -/
theorem parse_of_run {layout : List Chunk} {z : Zoned} (hera : 0 < z.wall.year)
    (h : run layout {} z.text = some { wallFields z.wall with zoneOffset := z.offset }) :
    parse layout z.text = some (z.instant * 1000) := by
  obtain ⟨-, -, hday, hlast⟩ := z.wall.isDate
  have hyear : (yearOfEra z.wall.year : Int) = z.wall.year := by
    rw [yearOfEra_of_pos hera]
    omega
  rw [parse, h, Option.filter_some_pos]
  · rw [Option.map_some]
    simp only [Fields.instant, wallFields, hyear, Zoned.instant, DateTime.micros,
      DateTime.seconds, Nat.cast_mul, Nat.cast_ofNat]
    congr 1
    omega
  · refine decide_eq_true ⟨hday, ?_⟩
    change z.wall.day ≤ daysIn (yearOfEra z.wall.year) z.wall.month
    rwa [hyear]

theorem parse_eq_none {layout : List Chunk} {text : List Char} (h : run layout {} text = none) :
    parse layout text = none := by
  rw [parse, h]
  rfl

/-- The six layouts read a text that one of them fits, and no other. -/
theorem parseNotAfter_text (z : Zoned) :
    parseNotAfter z.text = if LayoutFits z then some (z.instant * 1000) else none := by
  rcases Nat.lt_or_ge (yearOfEra z.wall.year) (10 ^ 4) with hyear | hyear
  · have hzone := run_numColonTZ z (wallFields z.wall)
    have hutc := run_utc z (wallFields z.wall)
    rw [← run_dateTimeLayout_blank (by decide) hyear] at hzone hutc
    have hz : parse (dateTimeLayout .blank [.literal 'Z']) z.text = none := by
      refine parse_eq_none ?_
      obtain ⟨sign, rest, hsign, hoffset⟩ := offsetText_eq_cons z.offset
      rw [run_dateTimeLayout_blank (by decide) hyear, hoffset]
      refine run_literal_ne _ _ _ ?_
      rcases hsign with rfl | rfl <;> decide
    have hletter : ∀ tail, parse (dateTimeLayout (.literal 'T') tail) z.text = none := by
      intro tail
      exact parse_eq_none (run_dateTimeLayout_letter hyear)
    by_cases hmins : HasMinutes z.offset ∧ 0 < z.wall.year
    · have hfits : LayoutFits z := by
        refine ⟨hmins.2, ?_, Or.inr hmins.1⟩
        rw [yearOfEra_of_pos hmins.2] at hyear
        omega
      rw [if_pos hmins] at hzone
      rw [if_pos hfits, parseNotAfter, notAfterLayouts, List.findSome?_cons,
        parse_of_run hmins.2 hzone]
    · rw [if_neg hmins] at hzone
      by_cases hzero : z.offset = 0 ∧ 0 < z.wall.year
      · have hfits : LayoutFits z := by
          refine ⟨hzero.2, ?_, Or.inl hzero.1⟩
          rw [yearOfEra_of_pos hzero.2] at hyear
          omega
        have hread : run (dateTimeLayout .blank [.literal '+', .literal '0', .literal '0']) {}
            z.text = some { wallFields z.wall with zoneOffset := z.offset } := by
          rw [hutc, if_pos hzero, hzero.1]
          rfl
        rw [if_pos hfits, parseNotAfter, notAfterLayouts, List.findSome?_cons,
          parse_eq_none hzone, List.findSome?_cons, parse_of_run hzero.2 hread]
      · rw [if_neg hzero] at hutc
        have hnot : ¬ LayoutFits z := by
          rintro ⟨hera, -, hoffset | hoffset⟩
          · exact hzero ⟨hoffset, hera⟩
          · exact hmins ⟨hoffset, hera⟩
        simp only [parseNotAfter, notAfterLayouts, List.findSome?_cons, parse_eq_none hzone,
          parse_eq_none hutc, hz, hletter, List.findSome?_nil, if_neg hnot]
  · have hlong : ∀ sep tail, parse (dateTimeLayout sep tail) z.text = none := by
      intro sep tail
      exact parse_eq_none (run_dateTimeLayout_long hyear)
    have hnot : ¬ LayoutFits z := by
      rintro ⟨hera, hlt, -⟩
      rw [yearOfEra_of_pos hera] at hyear
      omega
    simp only [parseNotAfter, notAfterLayouts, List.findSome?_cons, hlong, List.findSome?_nil,
      if_neg hnot]

/-- No layout fits an infinite value. -/
theorem parseNotAfter_infinite (zone : SessionZone) {t : Timestamptz}
    (h : t = .infinity ∨ t = .negInfinity) : parseNotAfter (t.text zone) = none := by
  have hnone : ∀ sep tail, parse (dateTimeLayout sep tail) (t.text zone) = none := by
    intro sep tail
    refine parse_eq_none ?_
    rcases h with rfl | rfl
    · exact run_longYear_none _ _ _ (c := 'i') (by decide)
    · exact run_longYear_none _ _ _ (c := '-') (by decide)
  simp only [parseNotAfter, notAfterLayouts, List.findSome?_cons, hnone, List.findSome?_nil]

end IronStock
