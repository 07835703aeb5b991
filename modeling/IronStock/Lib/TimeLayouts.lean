import IronStock.Lib.CivilTime
import IronStock.Lib.Decimals

/-!
# Times read by a layout

`time.Parse` of Go, for layouts of digits: a layout is a list of chunks, each of
which takes its part of the value off the front. Nothing may be left over, and the
day must be one of its month.
-/
namespace TimeLayouts

open CivilTime Decimals

/-! ## Layouts -/

inductive Chunk
  | literal (c : Char)
  /-- blanks of the layout, which any number of blanks matches -/
  | blank
  | longYear
  | zeroMonth
  | zeroDay
  | hour
  | zeroMinute
  | zeroSecond
  | fracSecond9
  | numColonTZ
  | iso8601ColonTZ
deriving DecidableEq

/-- How the chunk is written in a layout. -/
def Chunk.text : Chunk → List Char
  | literal c => [c]
  | blank => [' ']
  | longYear => "2006".toList
  | zeroMonth => "01".toList
  | zeroDay => "02".toList
  | hour => "15".toList
  | zeroMinute => "04".toList
  | zeroSecond => "05".toList
  | fracSecond9 => ".999999999".toList
  | numColonTZ => "-07:00".toList
  | iso8601ColonTZ => "Z07:00".toList

/-- The next chunk of a layout that is no literal, `nextStdChunk`. -/
def nextStdChunk : List Chunk → Option Chunk
  | [] => none
  | .literal _ :: layout | .blank :: layout => nextStdChunk layout
  | chunk :: _ => some chunk

/-- What has been read; `zoneOffset` is in seconds. -/
structure Fields where
  year : Nat := 0
  month : Nat := 1
  day : Nat := 1
  hour : Nat := 0
  minute : Nat := 0
  second : Nat := 0
  nsec : Nat := 0
  zoneOffset : Int := 0
deriving DecidableEq

/-- The nanoseconds since the start of 1970. -/
def Fields.instant (f : Fields) : Int :=
  (seconds (days f.year f.month f.day) f.hour f.minute f.second - f.zoneOffset) * 1000000000 +
    f.nsec

/-! ## The parts of a value -/

/-- One or two digits; two when `fixed`. -/
def getnum (fixed : Bool) : List Char → Option (Nat × List Char)
  | [] => none
  | [c] => if c.isDigit = true ∧ fixed = false then some (value c, []) else none
  | c :: d :: rest =>
    if c.isDigit = false then none
    else if d.isDigit = true then some (value c * 10 + value d, rest)
    else if fixed then none
    else some (value c, d :: rest)

/-- A number of two digits within bounds. -/
def getnumIn (fixed : Bool) (lo hi : Nat) (cs : List Char) : Option (Nat × List Char) :=
  (getnum fixed cs).filter fun r => lo ≤ r.1 ∧ r.1 ≤ hi

/-- A fraction of a second by its digits, of which nine count. -/
def parseNanoseconds (ds : List Char) : Nat :=
  number (ds.take 9) * 10 ^ (9 - (ds.take 9).length)

/-- The fraction of a second at the front, if there is one. -/
def fraction : List Char → Option (Nat × List Char)
  | p :: c :: rest =>
    if (p = '.' ∨ p = ',') ∧ c.isDigit = true then
      some (parseNanoseconds ((c :: rest).takeWhile (·.isDigit)),
        (c :: rest).dropWhile (·.isDigit))
    else none
  | _ => none

/-- A zone with a colon, hours and minutes without a sign. -/
def zone : List Char → Option (Int × List Char)
  | sign :: h :: h' :: ':' :: m :: m' :: rest => do
    let (hr, _) ← getnumIn true 0 24 [h, h']
    let (mm, _) ← getnumIn true 0 60 [m, m']
    if sign = '+' then some ((hr * 60 + mm) * 60, rest)
    else if sign = '-' then some (-((hr * 60 + mm) * 60), rest)
    else none
  | _ => none

/-! ## Reading -/

/-- One chunk; `layout` is what comes after it. -/
def step (layout : List Chunk) (f : Fields) (cs : List Char) :
    Chunk → Option (Fields × List Char)
  | .literal c =>
    match cs with
    | [] => none
    | d :: rest => if d = c then some (f, rest) else none
  | .blank =>
    match cs with
    | [] => some (f, [])
    | c :: _ => if c = ' ' then some (f, cs.dropWhile (· = ' ')) else none
  | .longYear =>
    if 4 ≤ cs.length ∧ (cs.take 4).all (·.isDigit) then
      some ({ f with year := number (cs.take 4) }, cs.drop 4)
    else none
  | .zeroMonth => (getnumIn true 1 12 cs).map fun r => ({ f with month := r.1 }, r.2)
  | .zeroDay => (getnum true cs).map fun r => ({ f with day := r.1 }, r.2)
  | .hour => (getnumIn false 0 23 cs).map fun r => ({ f with hour := r.1 }, r.2)
  | .zeroMinute => (getnumIn true 0 59 cs).map fun r => ({ f with minute := r.1 }, r.2)
  | .zeroSecond =>
    (getnumIn true 0 59 cs).map fun r =>
      -- a fraction in the value is read even when the layout has none
      match (if nextStdChunk layout = some .fracSecond9 then none else fraction r.2) with
      | some (nsec, rest) => ({ f with second := r.1, nsec := nsec }, rest)
      | none => ({ f with second := r.1 }, r.2)
  | .fracSecond9 =>
    match fraction cs with
    | some (nsec, rest) => some ({ f with nsec := nsec }, rest)
    | none => some (f, cs)
  | .numColonTZ => (zone cs).map fun r => ({ f with zoneOffset := r.1 }, r.2)
  | .iso8601ColonTZ =>
    if cs.head? = some 'Z' then some ({ f with zoneOffset := 0 }, cs.tail)
    else (zone cs).map fun r => ({ f with zoneOffset := r.1 }, r.2)

/-- All chunks of a layout; nothing is left over. -/
def run : List Chunk → Fields → List Char → Option Fields
  | [], f, cs => if cs = [] then some f else none
  | chunk :: layout, f, cs => (step layout f cs chunk).bind fun r => run layout r.1 r.2

attribute [local simp] step run

/-- `time.Parse` with UTC for a value without a zone. -/
def parse (layout : List Chunk) (text : List Char) : Option Int :=
  ((run layout {} text).filter fun f => 1 ≤ f.day ∧ f.day ≤ daysIn f.year f.month).map
    Fields.instant

/-! ## What the parts make of digits -/

theorem getnum_digits (fixed : Bool) {n : Nat} (h : n < 100) (rest : List Char) :
    getnum fixed (digits 2 n ++ rest) = some (n, rest) := by
  have htens : n / 10 % 10 < 10 := Nat.mod_lt _ (by omega)
  have hones : n % 10 < 10 := Nat.mod_lt _ (by omega)
  have hn : n / 10 % 10 * 10 + n % 10 = n := by omega
  simp only [digits, List.nil_append, List.cons_append, getnum, isDigit_digit htens,
    isDigit_digit hones, value_digit htens, value_digit hones, hn, Bool.true_eq_false, if_false,
    if_true]

theorem getnumIn_digits (fixed : Bool) {lo hi n : Nat} (h : n < 100) (hlo : lo ≤ n) (hhi : n ≤ hi)
    (rest : List Char) : getnumIn fixed lo hi (digits 2 n ++ rest) = some (n, rest) := by
  rw [getnumIn, getnum_digits fixed h]
  exact Option.filter_some_pos (by simp only [hlo, hhi, and_self, decide_true])

/-- Digits that nothing continues are read to their end. -/
theorem fraction_digits {p c : Char} (hp : p = '.' ∨ p = ',') (hc : c.isDigit = false)
    {ds : List Char} (hds : ∀ d ∈ ds, d.isDigit = true) (hne : ds ≠ []) (rest : List Char) :
    fraction (p :: (ds ++ c :: rest)) = some (parseNanoseconds ds, c :: rest) := by
  cases ds with
  | nil => exact absurd rfl hne
  | cons d ds =>
    have htake : (d :: ds ++ c :: rest).takeWhile (·.isDigit) = d :: ds := by
      rw [List.takeWhile_append_of_pos hds, List.takeWhile_cons_of_neg (by simp [hc]),
        List.append_nil]
    have hdrop : (d :: ds ++ c :: rest).dropWhile (·.isDigit) = c :: rest := by
      rw [List.dropWhile_append_of_pos hds, List.dropWhile_cons_of_neg (by simp [hc])]
    rw [List.cons_append] at htake hdrop ⊢
    rw [fraction, if_pos ⟨hp, hds d List.mem_cons_self⟩, htake, hdrop]

theorem fraction_eq_none {p : Char} (hp : p ≠ '.' ∧ p ≠ ',') (rest : List Char) :
    fraction (p :: rest) = none := by
  cases rest with
  | nil => rfl
  | cons c rest =>
    rw [fraction, if_neg]
    rintro ⟨hdot | hcomma, -⟩
    · exact hp.1 hdot
    · exact hp.2 hcomma

theorem zone_digits {sign : Char} (hsign : sign = '+' ∨ sign = '-') {h m : Nat} (hh : h ≤ 24)
    (hm : m ≤ 60) (rest : List Char) :
    zone (sign :: (digits 2 h ++ ':' :: (digits 2 m ++ rest))) =
      some ((if sign = '-' then (-1 : Int) else 1) * ((h * 60 + m) * 60), rest) := by
  have hhours := getnumIn_digits true (n := h) (by omega) (Nat.zero_le h) hh []
  have hminutes := getnumIn_digits true (n := m) (by omega) (Nat.zero_le m) hm []
  rw [List.append_nil, digits_two] at hhours hminutes
  simp only [digits_two, List.cons_append, List.nil_append, zone, hhours, hminutes,
    Option.bind_eq_bind, Option.bind_some]
  rcases hsign with rfl | rfl
  · simp only [if_true, Char.reduceEq, if_false, one_mul]
  · simp only [if_true, Char.reduceEq, if_false, neg_one_mul]

/-- Hours alone are no zone. -/
theorem zone_hours (sign : Char) (h : Nat) {rest : List Char} (hrest : rest.head? ≠ some ':') :
    zone (sign :: (digits 2 h ++ rest)) = none := by
  cases rest with
  | nil => rfl
  | cons c rest =>
    rw [digits_two, zone]
    rintro _ _ _ _ _ _ ⟨⟩
    exact hrest rfl

theorem parseNanoseconds_trimmed {w n : Nat} (hw : w ≤ 9) (h : n < 10 ^ w) :
    parseNanoseconds (trimmed w n) = n * 10 ^ (9 - w) := by
  have hlen := length_trimmed_le w n
  rw [parseNanoseconds, List.take_of_length_le (by omega)]
  have hsum : 9 - (trimmed w n).length = w - (trimmed w n).length + (9 - w) := by omega
  rw [hsum, pow_add, ← mul_assoc, number_trimmed h]

/-! ## What a layout makes of a text -/

section runs

variable (layout : List Chunk) (f : Fields) (cs : List Char)

@[simp] theorem run_nil : run [] f cs = if cs = [] then some f else none := rfl

theorem run_cons (chunk : Chunk) :
    run (chunk :: layout) f cs =
      (step layout f cs chunk).bind fun r => run layout r.1 r.2 := rfl

@[simp] theorem run_literal (c : Char) :
    run (.literal c :: layout) f (c :: cs) = run layout f cs := by
  rw [run_cons, step, if_pos rfl, Option.bind_some]

theorem run_literal_ne {c d : Char} (h : d ≠ c) :
    run (.literal c :: layout) f (d :: cs) = none := by
  rw [run_cons, step, if_neg h, Option.bind_none]

theorem run_blank {c : Char} (h : c ≠ ' ') :
    run (.blank :: layout) f (' ' :: c :: cs) = run layout f (c :: cs) := by
  have hdrop : (' ' :: c :: cs).dropWhile (· = ' ') = c :: cs := by
    rw [List.dropWhile_cons_of_pos (by decide), List.dropWhile_cons_of_neg (by simp [h])]
  rw [run_cons, step, if_pos rfl, hdrop, Option.bind_some]

theorem run_blank_digits (w n : Nat) :
    run (.blank :: layout) f (' ' :: (digits (w + 1) n ++ cs)) =
      run layout f (digits (w + 1) n ++ cs) := by
  have hlen := length_digits (w + 1) n
  cases hds : digits (w + 1) n with
  | nil =>
    rw [hds] at hlen
    cases hlen
  | cons c ds =>
    have hdigit : c.isDigit = true :=
      isDigit_of_mem_digits (w := w + 1) (n := n) (by rw [hds]; exact List.mem_cons_self)
    have hc : c ≠ ' ' := by
      rintro rfl
      cases hdigit
    exact run_blank layout f (ds ++ cs) hc

theorem run_zeroMonth {n : Nat} (hlo : 1 ≤ n) (hhi : n ≤ 12) :
    run (.zeroMonth :: layout) f (digits 2 n ++ cs) = run layout { f with month := n } cs := by
  rw [run_cons, step, getnumIn_digits true (by omega) hlo hhi]
  rfl

theorem run_zeroDay {n : Nat} (h : n < 100) :
    run (.zeroDay :: layout) f (digits 2 n ++ cs) = run layout { f with day := n } cs := by
  rw [run_cons, step, getnum_digits true h]
  rfl

theorem run_hour {n : Nat} (h : n < 24) :
    run (.hour :: layout) f (digits 2 n ++ cs) = run layout { f with hour := n } cs := by
  rw [run_cons, step, getnumIn_digits false (by omega) (Nat.zero_le n) (by omega)]
  rfl

theorem run_zeroMinute {n : Nat} (h : n < 60) :
    run (.zeroMinute :: layout) f (digits 2 n ++ cs) = run layout { f with minute := n } cs := by
  rw [run_cons, step, getnumIn_digits true (by omega) (Nat.zero_le n) (by omega)]
  rfl

/-- Seconds take a fraction along that the layout does not have. -/
theorem run_zeroSecond {n : Nat} (h : n < 60)
    (hlayout : nextStdChunk layout ≠ some .fracSecond9) :
    run (.zeroSecond :: layout) f (digits 2 n ++ cs) =
      match fraction cs with
      | some (nsec, rest) => run layout { f with second := n, nsec := nsec } rest
      | none => run layout { f with second := n } cs := by
  rw [run_cons, step, getnumIn_digits true (by omega) (Nat.zero_le n) (by omega)]
  simp only [Option.map_some, Option.bind_some, if_neg hlayout]
  cases fraction cs <;> rfl

theorem run_longYear {n : Nat} (h : n < 10 ^ 4) :
    run (.longYear :: layout) f (zeropad 4 n ++ cs) = run layout { f with year := n } cs := by
  have htake : (digits 4 n ++ cs).take 4 = digits 4 n := by
    rw [List.take_append_of_le_length (by rw [length_digits]),
      List.take_of_length_le (by rw [length_digits])]
  have hdrop : (digits 4 n ++ cs).drop 4 = cs := by
    rw [List.drop_append_of_le_length (by rw [length_digits]),
      List.drop_of_length_le (by rw [length_digits]), List.nil_append]
  have hall : 4 ≤ (digits 4 n ++ cs).length ∧ (digits 4 n).all (·.isDigit) = true := by
    refine ⟨?_, List.all_eq_true.mpr fun c hc => isDigit_of_mem_digits hc⟩
    rw [List.length_append, length_digits]
    omega
  rw [zeropad_eq_digits (by omega) h, run_cons, step, htake, hdrop, if_pos hall,
    Option.bind_some, number_digits h]

/-- A year of more than four digits is cut off, and no literal follows. -/
theorem run_longYear_cut {n : Nat} (h : 10 ^ 4 ≤ n) {c : Char} (hc : c.isDigit = false) :
    run (.longYear :: .literal c :: layout) f (zeropad 4 n ++ cs) = none := by
  rw [run_cons]
  simp only [step]
  split
  case isFalse => rfl
  case isTrue =>
    have hlen := lt_length_zeropad h
    have hdrop : (zeropad 4 n ++ cs).drop 4 =
        (zeropad 4 n).get ⟨4, hlen⟩ :: ((zeropad 4 n).drop 5 ++ cs) := by
      rw [List.drop_append_of_le_length (by omega), List.drop_eq_getElem_cons hlen]
      rfl
    rw [Option.bind_some, hdrop]
    refine run_literal_ne _ _ _ fun heq => ?_
    have hdigit := isDigit_of_mem_zeropad (List.get_mem (zeropad 4 n) ⟨4, hlen⟩)
    rw [heq, hc] at hdigit
    cases hdigit

/-- Without a digit at the front there is no year. -/
theorem run_longYear_none {c : Char} (hc : c.isDigit = false) :
    run (.longYear :: layout) f (c :: cs) = none := by
  rw [run_cons, step, if_neg, Option.bind_none]
  rintro ⟨-, hall⟩
  rw [List.take_succ_cons, List.all_cons, hc] at hall
  cases hall

end runs

end TimeLayouts
