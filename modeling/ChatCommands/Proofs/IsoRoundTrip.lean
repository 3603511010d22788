import ChatCommands.Calendar.Iso8601
import Mathlib.Algebra.Group.Nat.Defs
import Mathlib.Data.List.TakeWhile

/-!
# Written moments read back

The reader of ISO 8601 accepts many spellings, the writer knows one. `ofIso?_iso` says that what the
writer writes is read back as it was, for every moment that can be read at all:

* `number?_utf8` - the reader of numbers takes back the digits of a number;
* `groups?_last`, `groups?_pair`, `groups?_fraction` - the reader of groups takes back the parts of
  a time, one at a time;
* `date?_written`, `reading?_written`, `zone?_written` - the date, the clock and the zone.

Not every moment can be read: a reader that finds no whole second in an offset takes it for that of
UTC. `Readable` tells the moments that can, and `readable_of_ofIso?` that no others are read.
-/

namespace ChatCommands

/-- An offset of zero, or of at least a second. `ofIso?` takes any other for zero. -/
def Offset.Readable (offset : Offset) : Prop :=
  offset.microseconds = 0 ∨ 1000000 ≤ offset.microseconds.natAbs

def DateTime.Readable (t : DateTime) : Prop := ∀ offset ∈ t.offset, offset.Readable

namespace Iso8601

/-! ## Bytes -/

theorem utf8_append (cs ds : List Char) : utf8 (cs ++ ds) = utf8 cs ++ utf8 ds :=
  List.flatMap_append

theorem utf8_cons_ascii {c : Char} (h : c.utf8Size = 1) (cs : List Char) :
    utf8 (c :: cs) = c.val.toUInt8 :: utf8 cs := by
  rw [utf8, List.flatMap_cons, String.utf8EncodeChar_eq_singleton h]
  rfl

def digitByte (d : Nat) : UInt8 := UInt8.ofNat (48 + d)

theorem utf8_digitChar {d : Nat} (h : d < 10) : utf8 [Nat.digitChar d] = [digitByte d] := by
  have hall : ∀ d < 10, utf8 [Nat.digitChar d] = [digitByte d] := by decide
  exact hall d h

theorem isDigit_digitByte {d : Nat} (h : d < 10) : isDigit (digitByte d) = true := by
  have hall : ∀ d < 10, isDigit (digitByte d) = true := by decide
  exact hall d h

theorem toNat_digitByte {d : Nat} (h : d < 10) : (digitByte d).toNat - 48 = d := by
  have hall : ∀ d < 10, (digitByte d).toNat - 48 = d := by decide
  exact hall d h

/-! ## Digits -/

/-- The bytes of the last `width` digits of `n`. -/
def digitBytes (width n : Nat) : List UInt8 := utf8 (Chars.fixedDigits 10 width n)

theorem digitBytes_succ (width n : Nat) :
    digitBytes (width + 1) n = digitBytes width (n / 10) ++ [digitByte (n % 10)] := by
  rw [digitBytes, Chars.fixedDigits, utf8_append, utf8_digitChar (Nat.mod_lt n (by decide))]
  rfl

@[simp] theorem length_digitBytes (width n : Nat) : (digitBytes width n).length = width := by
  induction width generalizing n with
  | zero => rfl
  | succ width ih => simp [digitBytes_succ, ih]

theorem isDigit_of_mem_digitBytes {width n : Nat} {b : UInt8} (h : b ∈ digitBytes width n) :
    isDigit b = true := by
  induction width generalizing n with
  | zero => simp [digitBytes, Chars.fixedDigits, utf8] at h
  | succ width ih =>
    rw [digitBytes_succ, List.mem_append, List.mem_singleton] at h
    rcases h with h | rfl
    · exact ih h
    · exact isDigit_digitByte (Nat.mod_lt n (by decide))

theorem foldl_digitBytes (width n : Nat) :
    (digitBytes width n).foldl (fun n b => n * 10 + (b.toNat - 48)) 0 = n % 10 ^ width := by
  induction width generalizing n with
  | zero => simp [digitBytes, Chars.fixedDigits, utf8, Nat.mod_one]
  | succ width ih =>
    -- the number without its last digit is read first, and then that digit
    have hlast : n % 10 < 10 := Nat.mod_lt n (by decide)
    rw [digitBytes_succ, List.foldl_append, ih]
    simp only [List.foldl_cons, List.foldl_nil, toNat_digitByte hlast]
    rw [Nat.pow_succ', Nat.mod_mul]
    omega

/-- `number?` reads the digits of a number that fits. -/
theorem number?_utf8 (width : Nat) {n : Nat} (h : n < 10 ^ width) (rest : List UInt8) :
    number? width (digitBytes width n ++ rest) = some (n, rest) := by
  have htake : (digitBytes width n ++ rest).take width = digitBytes width n := by
    rw [List.take_append_of_le_length (by simp), List.take_of_length_le (by simp)]
  have hdrop : (digitBytes width n ++ rest).drop width = rest := by
    rw [List.drop_append_of_le_length (by simp), List.drop_of_length_le (by simp), List.nil_append]
  have hall : (digitBytes width n).all isDigit = true :=
    List.all_eq_true.2 fun b hb => isDigit_of_mem_digitBytes hb
  -- `n` fits, so cutting it to `width` digits loses nothing
  rw [number?, htake, hdrop, foldl_digitBytes, Nat.mod_eq_of_lt h]
  simp [hall]

/-! ## Groups -/

/-- A reading with one more group in front. -/
def Reading.push (n : Nat) (r : Reading) : Reading := { r with groups := n :: r.groups }

theorem groups?_last {n : Nat} (h : n < 100) (next : UInt8) (count : Nat)
    (separated : Option Bool) :
    groups? next (count + 1) separated (digitBytes 2 n) = some ⟨[n], 0, next ≠ 0⟩ := by
  have hnumber : number? 2 (digitBytes 2 n) = some (n, []) := by
    simpa using number?_utf8 2 h []
  rw [groups?, hnumber]
  rfl

theorem groups?_pair {n : Nat} (h : n < 100) (next : UInt8) (count : Nat)
    {separated : Option Bool} (hseparated : separated.getD true = true) {later : List UInt8}
    (hlater : later ≠ []) :
    groups? next (count + 1) separated (digitBytes 2 n ++ ascii ':' :: later) =
      (groups? next count (some true) later).map (Reading.push n) := by
  -- the reader stops where at most one byte is left
  have hlength : ¬(ascii ':' :: later).length ≤ 1 := by
    have hpos : 0 < later.length := List.length_pos_iff.2 hlater
    simp only [List.length_cons]
    omega
  rw [groups?, number?_utf8 2 h]
  simp only [Option.bind_eq_bind, Option.bind_some, List.headD_cons, List.tail_cons,
    if_neg hlength, beq_self_eq_true, hseparated, Bool.and_self, if_true]
  cases groups? next count (some true) later <;> rfl

theorem fraction?_written {m : Nat} (h : m < 1000000) (next : UInt8) :
    fraction? next (digitBytes 6 m) = some ⟨[], m, next ≠ 0⟩ := by
  have hnumber : number? 6 (digitBytes 6 m) = some (m, []) := by
    simpa using number?_utf8 6 h []
  have hwidth : min 6 (digitBytes 6 m).length = 6 := by simp
  rw [fraction?, hwidth, hnumber]
  simp only [Option.bind_eq_bind, Option.bind_some, Nat.sub_self, Nat.pow_eq, Nat.pow_zero,
    Nat.mul_one]
  rfl

theorem groups?_fraction {n m : Nat} (hn : n < 100) (hm : m < 1000000) (next : UInt8)
    (count : Nat) :
    groups? next (count + 1) (some true) (digitBytes 2 n ++ ascii '.' :: digitBytes 6 m) =
      some ⟨[n], m, next ≠ 0⟩ := by
  have hlength : ¬(ascii '.' :: digitBytes 6 m).length ≤ 1 := by simp
  have hpoint : (ascii '.' == ascii ':') = false := by decide
  rw [groups?, number?_utf8 2 hn]
  simp only [Option.bind_eq_bind, Option.bind_some, List.headD_cons, List.tail_cons,
    Option.getD_some, if_neg hlength, hpoint, Bool.and_false, beq_self_eq_true, Bool.true_or,
    if_true, fraction?_written hm]
  rfl

/-! ## The date -/

theorem utf8_writeDate (d : Date) :
    utf8 (DateTime.writeDate d) = digitBytes 4 d.year ++ ascii '-' ::
      (digitBytes 2 d.month ++ ascii '-' :: (digitBytes 2 d.day ++ [])) := by
  have hdash (cs : List Char) : utf8 ('-' :: cs) = ascii '-' :: utf8 cs := utf8_cons_ascii rfl cs
  simp only [DateTime.writeDate, utf8_append, hdash, digitBytes, List.append_assoc,
    List.cons_append, List.append_nil]

theorem length_utf8_writeDate (d : Date) : (utf8 (DateTime.writeDate d)).length = 10 := by
  simp [utf8_writeDate]

/-- The fifth byte of a written date is a dash with a digit behind it, so `dateLength?` is 10. -/
theorem dateLength?_written (d : Date) {rest : List UInt8} :
    dateLength? (utf8 (DateTime.writeDate d) ++ rest) = some 10 := by
  have hlength : (utf8 (DateTime.writeDate d) ++ rest).length ≠ 7 := by
    rw [List.length_append, length_utf8_writeDate]
    omega
  have hdash : byteAt (utf8 (DateTime.writeDate d) ++ rest) 4 = ascii '-' := by
    simp [byteAt, utf8_writeDate, digitBytes_succ]
  have hdigit : byteAt (utf8 (DateTime.writeDate d) ++ rest) 5 =
      digitByte (d.month / 10 % 10) := by
    simp [byteAt, utf8_writeDate, digitBytes_succ]
  -- the sixth byte is a digit of the month, so this is no week date
  have hweek : byteAt (utf8 (DateTime.writeDate d) ++ rest) 5 ≠ ascii 'W' := by
    intro h
    have hisDigit := isDigit_digitByte (d := d.month / 10 % 10) (Nat.mod_lt _ (by decide))
    rw [← hdigit, h] at hisDigit
    revert hisDigit
    decide
  rw [dateLength?]
  simp only [if_neg hlength, if_pos hdash, if_neg hweek]

theorem ofNumbers?_date (d : Date) : Date.ofNumbers? d.year d.month d.day = some d := by
  rw [Date.ofNumbers?, dif_pos d.exists_date]

theorem daysInMonth_le (year month : Nat) : daysInMonth year month ≤ 31 := by
  unfold daysInMonth
  split <;> try omega
  split <;> omega

/-- `date?` reads what `writeDate` writes. -/
theorem date?_written (d : Date) : date? (utf8 (DateTime.writeDate d)) = some d := by
  obtain ⟨⟨_, hyear⟩, ⟨_, hmonth⟩, ⟨_, hday⟩⟩ := d.exists_date
  have hyear' : d.year < 10 ^ 4 := Nat.lt_succ_of_le hyear
  have hmonth' : d.month < 10 ^ 2 := by omega
  have hday' : d.day < 10 ^ 2 := by
    have hle := daysInMonth_le d.year d.month
    omega
  -- the month starts with a digit and not with a `W`
  have hweek : (digitBytes 2 d.month ++ ascii '-' :: (digitBytes 2 d.day ++ [])).head? ≠
      some (ascii 'W') := by
    intro h
    have hmem : ascii 'W' ∈ digitBytes 2 d.month := by
      simp [digitBytes_succ] at h ⊢
      exact .inr (.inl h.symm)
    have hisDigit := isDigit_of_mem_digitBytes hmem
    revert hisDigit
    decide
  rw [utf8_writeDate, date?, number?_utf8 4 hyear']
  simp only [Option.bind_eq_bind, Option.bind_some, List.head?_cons, List.tail_cons,
    beq_self_eq_true, if_true, beq_iff_eq, if_neg hweek, number?_utf8 2 hmonth', skip?,
    number?_utf8 2 hday', List.isEmpty_nil, ofNumbers?_date]

/-! ## The clock -/

theorem utf8_writeFraction {m : Nat} (h : m ≠ 0) :
    utf8 (DateTime.writeFraction m) = ascii '.' :: digitBytes 6 m := by
  rw [DateTime.writeFraction, if_neg h, utf8_cons_ascii rfl]
  rfl

/-- The last group of a time, with the fraction behind it if there is one. -/
theorem groups?_seconds {n m : Nat} (hn : n < 100) (hm : m < 1000000) (next : UInt8)
    (count : Nat) :
    groups? next (count + 1) (some true) (digitBytes 2 n ++ utf8 (DateTime.writeFraction m)) =
      some ⟨[n], m, next ≠ 0⟩ := by
  by_cases h : m = 0
  · -- no fraction is written
    subst h
    have hnil : utf8 (DateTime.writeFraction 0) = [] := rfl
    rw [hnil, List.append_nil, groups?_last hn]
  · rw [utf8_writeFraction h, groups?_fraction hn hm]

theorem utf8_colonPair (n : Nat) : utf8 (DateTime.colonPair n) = ascii ':' :: digitBytes 2 n :=
  utf8_cons_ascii rfl _

theorem utf8_writeClock (t : Clock) :
    utf8 (DateTime.writeClock t) = digitBytes 2 t.hour ++ ascii ':' :: (digitBytes 2 t.minute ++
      ascii ':' :: (digitBytes 2 t.second ++ utf8 (DateTime.writeFraction t.microsecond))) := by
  simp only [DateTime.writeClock, utf8_append, utf8_colonPair, digitBytes, List.append_assoc,
    List.cons_append]

/-- `reading?` reads what `writeClock` writes. -/
theorem reading?_written (t : Clock) (next : UInt8) :
    reading? next (utf8 (DateTime.writeClock t)) =
      some ⟨[t.hour, t.minute, t.second], t.microsecond, next ≠ 0⟩ := by
  obtain ⟨hhour, hminute, hsecond, hmicrosecond⟩ := t.in_range
  have hne (n : Nat) (later : List UInt8) : digitBytes 2 n ++ later ≠ [] := by
    simp [digitBytes_succ]
  rw [utf8_writeClock, reading?, groups?_pair (by omega) next 2 rfl (hne _ _),
    groups?_pair (by omega) next 1 rfl (hne _ _), groups?_seconds (by omega) hmicrosecond]
  rfl

theorem clock?_written (t : Clock) (extra : Bool) :
    Reading.clock? ⟨[t.hour, t.minute, t.second], t.microsecond, extra⟩ = some t := by
  show Clock.ofNumbers? t.hour t.minute t.second t.microsecond = some t
  rw [Clock.ofNumbers?, dif_pos t.in_range]

theorem not_startsZone_of_isDigit {b : UInt8} (h : isDigit b = true) : startsZone b = false := by
  rw [Bool.eq_false_iff]
  intro hzone
  simp only [startsZone, Bool.or_eq_true, beq_iff_eq] at hzone
  rcases hzone with (rfl | rfl) | rfl <;> revert h <;> decide

/-- `startsZone` holds of no byte of a written clock. -/
theorem not_startsZone_of_mem {t : Clock} {b : UInt8} (h : b ∈ utf8 (DateTime.writeClock t)) :
    startsZone b = false := by
  have hdigit {width n : Nat} (h : b ∈ digitBytes width n) : startsZone b = false :=
    not_startsZone_of_isDigit (isDigit_of_mem_digitBytes h)
  have hcolon : startsZone (ascii ':') = false := by decide
  have hpoint : startsZone (ascii '.') = false := by decide
  simp only [utf8_writeClock, List.mem_append, List.mem_cons] at h
  rcases h with h | rfl | h | rfl | h | h
  · exact hdigit h
  · exact hcolon
  · exact hdigit h
  · exact hcolon
  · exact hdigit h
  · by_cases hm : t.microsecond = 0
    · rw [hm] at h
      cases h
    · rw [utf8_writeFraction hm, List.mem_cons] at h
      rcases h with rfl | h
      · exact hpoint
      · exact hdigit h

/-! ## The zone -/

def writtenZone (offset : Offset) : List UInt8 :=
  (utf8 (DateTime.writeOffset offset)).tail

def signByte (offset : Offset) : UInt8 :=
  if offset.microseconds < 0 then ascii '-' else ascii '+'

theorem utf8_writeOffset (offset : Offset) :
    utf8 (DateTime.writeOffset offset) = signByte offset :: writtenZone offset := by
  have hcons {c : Char} (h : c.utf8Size = 1) (cs : List Char) :
      utf8 (c :: cs) = ascii c :: (utf8 (c :: cs)).tail := by
    rw [utf8_cons_ascii h]
    rfl
  unfold writtenZone signByte DateTime.writeOffset
  by_cases hsign : offset.microseconds < 0
  · simp only [if_pos hsign, List.cons_append]
    exact hcons rfl _
  · simp only [if_neg hsign, List.cons_append]
    exact hcons rfl _

theorem writtenZone_eq (offset : Offset) :
    writtenZone offset =
      let total := offset.microseconds.natAbs
      let seconds := total / 1000000
      digitBytes 2 (seconds / 3600) ++ ascii ':' :: (digitBytes 2 (seconds / 60 % 60) ++
        if total % 60000000 = 0 then []
        else ascii ':' :: (digitBytes 2 (seconds % 60) ++
          utf8 (DateTime.writeFraction (total % 1000000)))) := by
  have hsign (b : Prop) [Decidable b] (cs : List Char) :
      (utf8 ((if b then '-' else '+') :: cs)).tail = utf8 cs := by
    split <;> rw [utf8_cons_ascii rfl] <;> rfl
  unfold writtenZone DateTime.writeOffset
  simp only [List.cons_append, hsign, utf8_append, utf8_colonPair, List.append_assoc]
  split
  · rfl
  · simp only [utf8_append, utf8_colonPair, List.cons_append, digitBytes]

/-- `reading?` reads the hours, minutes and seconds of a written offset. -/
theorem reading?_writtenZone (offset : Offset) :
    ∃ r, reading? 0 (writtenZone offset) = some r ∧ r.extra = false ∧
      r.hours * 3600 + r.minutes * 60 + r.seconds = offset.microseconds.natAbs / 1000000 ∧
      r.fraction = offset.microseconds.natAbs % 1000000 := by
  have hday : offset.microseconds.natAbs < 86400000000 := offset.below_day
  have hne (n : Nat) (later : List UInt8) : digitBytes 2 n ++ later ≠ [] := by
    simp [digitBytes_succ]
  -- only the size of the offset matters from here on
  rw [writtenZone_eq]
  generalize offset.microseconds.natAbs = total at hday ⊢
  have hhours : total / 1000000 / 3600 < 100 := by omega
  have hminutes : total / 1000000 / 60 % 60 < 100 := by omega
  simp only [reading?]
  rw [groups?_pair hhours 0 2 rfl (hne _ _)]
  by_cases hsmall : total % 60000000 = 0
  · -- whole minutes: the seconds and the fraction that are left out are zero
    rw [if_pos hsmall, List.append_nil, groups?_last hminutes]
    refine ⟨_, rfl, rfl, ?_, ?_⟩
    · show total / 1000000 / 3600 * 3600 + total / 1000000 / 60 % 60 * 60 + 0 = _
      omega
    · show 0 = _
      omega
  · rw [if_neg hsmall, groups?_pair hminutes 0 1 rfl (hne _ _),
      groups?_seconds (by omega) (by omega)]
    refine ⟨_, rfl, rfl, ?_, rfl⟩
    show total / 1000000 / 3600 * 3600 + total / 1000000 / 60 % 60 * 60 + total / 1000000 % 60 = _
    omega

theorem ofMicroseconds?_offset (offset : Offset) :
    Offset.ofMicroseconds? offset.microseconds = some offset := by
  rw [Offset.ofMicroseconds?, dif_pos offset.below_day]

/-- `zone?` reads what `writeOffset` writes, for a readable offset. -/
theorem zone?_written {offset : Offset} (h : offset.Readable) :
    zone? (signByte offset) (writtenZone offset) = some offset := by
  obtain ⟨r, hr, hextra, hseconds, hfraction⟩ := reading?_writtenZone offset
  have hsign : signByte offset ≠ ascii 'Z' := by
    unfold signByte
    split <;> decide
  rw [zone?, if_neg hsign, hr]
  simp only [Option.bind_eq_bind, Option.bind_some, hextra, Bool.false_eq_true, if_false]
  rw [Reading.offset?, hseconds, hfraction]
  by_cases hzero : offset.microseconds.natAbs / 1000000 = 0
  · -- below a second only the offset of UTC can be read
    have hutc : offset.microseconds = 0 := by
      rcases h with h | h
      · exact h
      · omega
    simp only [if_pos hzero]
    obtain ⟨microseconds, below⟩ := offset
    subst hutc
    rfl
  · -- the sign that was written gives the offset back
    have htotal : (if signByte offset == ascii '-' then
          -((offset.microseconds.natAbs / 1000000 * 1000000 +
            offset.microseconds.natAbs % 1000000 : Nat) : Int)
        else ((offset.microseconds.natAbs / 1000000 * 1000000 +
            offset.microseconds.natAbs % 1000000 : Nat) : Int)) = offset.microseconds := by
      unfold signByte
      by_cases hneg : offset.microseconds < 0
      · rw [if_pos hneg, if_pos (by decide)]
        omega
      · rw [if_neg hneg, if_neg (by decide)]
        omega
    simp only [if_neg hzero]
    rw [htotal, ofMicroseconds?_offset]

/-! ## The moment -/

theorem time?_written {t : DateTime} (h : t.Readable) :
    time? (utf8 (DateTime.writeClock t.clock ++
      (t.offset.map DateTime.writeOffset).getD [])) = some (t.clock, t.offset) := by
  have hclock : ∀ b ∈ utf8 (DateTime.writeClock t.clock), (!startsZone b) = true := by
    intro b hb
    rw [not_startsZone_of_mem hb]
    rfl
  rw [utf8_append, time?]
  cases hoffset : t.offset with
  | none =>
    have hnil : utf8 ((none.map DateTime.writeOffset).getD []) = [] := rfl
    rw [hnil, List.append_nil, List.takeWhile_eq_self_iff.2 hclock,
      List.dropWhile_eq_nil_iff.2 hclock]
    simp only [Option.bind_eq_bind, reading?_written, Option.bind_some, clock?_written]
    rfl
  | some offset =>
    have hzone : startsZone (signByte offset) = true := by
      unfold signByte
      split <;> decide
    have hwritten : utf8 (((some offset).map DateTime.writeOffset).getD []) =
        signByte offset :: writtenZone offset := utf8_writeOffset offset
    rw [hwritten, List.takeWhile_append_of_pos hclock, List.dropWhile_append_of_pos hclock,
      List.takeWhile_cons_of_neg (by simp [hzone]), List.dropWhile_cons_of_neg (by simp [hzone]),
      List.append_nil]
    simp only [Option.bind_eq_bind, reading?_written, Option.bind_some, clock?_written,
      zone?_written (h offset hoffset)]
    rfl

theorem dateTimeOfBytes?_written {t : DateTime} (h : t.Readable) :
    dateTimeOfBytes? (utf8 (DateTime.write 'T' t)) = some t := by
  have hwrite : utf8 (DateTime.write 'T' t) = utf8 (DateTime.writeDate t.date) ++
      ascii 'T' :: utf8 (DateTime.writeClock t.clock ++
        (t.offset.map DateTime.writeOffset).getD []) := by
    have hseparator (cs : List Char) : utf8 ('T' :: cs) = ascii 'T' :: utf8 cs :=
      utf8_cons_ascii rfl cs
    cases hoffset : t.offset <;>
      simp [DateTime.write, hoffset, utf8_append, hseparator]
  have hdate : (utf8 (DateTime.writeDate t.date)).length = 10 := length_utf8_writeDate t.date
  rw [hwrite, dateTimeOfBytes?, if_neg (by rw [List.length_append]; omega), dateLength?_written]
  simp only [Option.bind_eq_bind, Option.bind_some]
  rw [List.take_left' hdate, List.drop_left' hdate, date?_written]
  -- the separator is a single byte
  have hwidth : characterWidth (ascii 'T') - 1 = 0 := by decide
  simp only [Option.bind_some, hwidth, List.drop_zero, time?_written h]
  rfl

end Iso8601

/-! ## What can be read -/

theorem readable_of_ofMicroseconds? {seconds : Nat} (fraction : Nat) {total : Int}
    {offset : Offset} (hseconds : seconds ≠ 0)
    (htotal : total.natAbs = seconds * 1000000 + fraction)
    (h : Offset.ofMicroseconds? total = some offset) : offset.Readable := by
  rw [Offset.ofMicroseconds?] at h
  split at h
  · cases h
    refine .inr ?_
    show 1000000 ≤ total.natAbs
    omega
  · cases h

theorem readable_of_offset? {r : Iso8601.Reading} {isNegative : Bool} {offset : Offset}
    (h : r.offset? isNegative = some offset) : offset.Readable := by
  rw [Iso8601.Reading.offset?] at h
  by_cases hzero : r.hours * 3600 + r.minutes * 60 + r.seconds = 0
  · simp only [if_pos hzero] at h
    cases h
    exact .inl rfl
  · -- with a second or more the fraction cannot bring the offset below a second
    simp only [if_neg hzero] at h
    refine readable_of_ofMicroseconds? r.fraction hzero ?_ h
    split <;> omega

theorem readable_of_zone? {sign : UInt8} {bytes : List UInt8} {offset : Offset}
    (h : Iso8601.zone? sign bytes = some offset) : offset.Readable := by
  rw [Iso8601.zone?] at h
  split at h
  · split at h
    · cases h
      exact .inl rfl
    · cases h
  · obtain ⟨r, _, hr⟩ := Option.bind_eq_some_iff.1 h
    split at hr
    · cases hr
    · exact readable_of_offset? hr

theorem readable_of_time? {bytes : List UInt8} {clock : Clock} {read : Option Offset}
    (h : Iso8601.time? bytes = some (clock, read)) : ∀ offset ∈ read, offset.Readable := by
  rw [Iso8601.time?] at h
  split at h
  · obtain ⟨r, _, hr⟩ := Option.bind_eq_some_iff.1 h
    split at hr
    · cases hr
    · obtain ⟨_, _, hclock⟩ := Option.bind_eq_some_iff.1 hr
      cases hclock
      simp
  · obtain ⟨r, _, hr⟩ := Option.bind_eq_some_iff.1 h
    obtain ⟨offset, hzone, hrest⟩ := Option.bind_eq_some_iff.1 hr
    obtain ⟨_, _, hclock⟩ := Option.bind_eq_some_iff.1 hrest
    cases hclock
    intro other hother
    cases hother
    exact readable_of_zone? hzone

/-- What `ofIso?` reads is readable. -/
theorem DateTime.readable_of_ofIso? {text : String} {t : DateTime}
    (h : DateTime.ofIso? text = some t) : t.Readable := by
  rw [DateTime.ofIso?, Iso8601.dateTimeOfBytes?] at h
  split at h
  · cases h
  · obtain ⟨length, _, hlength⟩ := Option.bind_eq_some_iff.1 h
    obtain ⟨date, _, hdate⟩ := Option.bind_eq_some_iff.1 hlength
    split at hdate
    · cases hdate
      intro offset hoffset
      cases hoffset
    · obtain ⟨⟨clock, offset⟩, htime, hrest⟩ := Option.bind_eq_some_iff.1 hdate
      cases hrest
      exact readable_of_time? htime

/-- `ofIso?` takes `iso` back, for every readable moment. -/
theorem DateTime.ofIso?_iso {t : DateTime} (h : t.Readable) : DateTime.ofIso? t.iso = some t := by
  rw [DateTime.ofIso?, DateTime.iso, String.toList_ofList]
  exact Iso8601.dateTimeOfBytes?_written h

end ChatCommands
