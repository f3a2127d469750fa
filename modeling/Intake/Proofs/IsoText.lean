import Intake.Calendar.IsoReader
import Intake.Calendar.IsoWriter
import Intake.Proofs.Numeral

/-!
# Proofs — Iso text — moments written and read back

Numbers of a fixed width are written with leading zeros and read back with what follows them
(`Iso.number?_padded`).  A date, a time of day and an offset are put together from such numbers and
separators, and every character in them is plain, so that the layout in units changes nothing.

A moment that has been written is read back (`Moment.read?_iso`), with one exception: an offset of
less than a second either way is read as that of universal time, so that the moment that is read,
`Moment.reread`, is then another instant with the same local time.
-/

namespace Intake.Calendar

/-! ### Numbers of a fixed width -/

theorem length_padded {width n : Nat} (hw : 0 < width) (hn : n < 10 ^ width) :
    (padded width n).length = width := by
  have hdigits : (Nat.toDigits 10 n).length ≤ width := (Nat.length_toDigits_le_iff (by decide) hw).mpr hn
  rw [padded, List.length_append, List.length_replicate]
  omega

theorem isDigit_of_mem_padded {width n : Nat} {c : Char} (h : c ∈ padded width n) : c.isDigit = true := by
  rcases List.mem_append.mp h with h | h
  · rw [List.eq_of_mem_replicate h]
    rfl
  · exact Text.isDigit_of_mem_toDigits h

theorem ofDigitChars_padded (width n : Nat) : Nat.ofDigitChars 10 (padded width n) 0 = n := by
  rw [padded, Nat.ofDigitChars_append, Nat.ofDigitChars_replicate_zero, Nat.mul_zero]
  exact Nat.ofDigitChars_ten_toDigits

theorem padded_ne_nil (width n : Nat) : padded width n ≠ [] :=
  List.append_ne_nil_of_right_ne_nil _ Nat.toDigits_ne_nil

namespace Iso

theorem digits?_append {ds : List Char} (hd : ∀ c ∈ ds, c.isDigit = true) (n : Nat) (rest : List Char) :
    digits? ds.length n (ds ++ rest) = some (Nat.ofDigitChars 10 ds n, rest) := by
  induction ds generalizing n with
  | nil => rfl
  | cons c ds ih =>
      obtain ⟨hc, hds⟩ := List.forall_mem_cons.mp hd
      rw [List.length_cons, List.cons_append, digits?, if_pos hc, ih hds, Nat.ofDigitChars_cons]
      rfl

theorem number?_padded {width n : Nat} (hw : 0 < width) (hn : n < 10 ^ width) (rest : List Char) :
    number? width (padded width n ++ rest) = some (n, rest) := by
  have h := digits?_append (fun _ (hc : _ ∈ padded width n) => isDigit_of_mem_padded hc) 0 rest
  rw [length_padded hw hn, ofDigitChars_padded] at h
  exact h

theorem front_cons (c : Char) (rest : List Char) : front (c :: rest) = c := rfl

theorem front_padded_isDigit (width n : Nat) (rest : List Char) :
    (front (padded width n ++ rest)).isDigit = true := by
  obtain ⟨c, cs, hc⟩ := List.exists_cons_of_ne_nil (padded_ne_nil width n)
  rw [hc]
  exact isDigit_of_mem_padded (hc ▸ List.mem_cons_self ..)

theorem front_padded_ne {c : Char} (hc : c.isDigit = false) (width n : Nat) (rest : List Char) :
    front (padded width n ++ rest) ≠ c := by
  intro h
  have hd := front_padded_isDigit width n rest
  rw [h, hc] at hd
  cases hd

/-! ### Dates -/

theorem iso_append (d : Date) (rest : List Char) :
    d.iso ++ rest = padded 4 d.year ++ '-' :: (padded 2 d.month ++ '-' :: (padded 2 d.day ++ rest)) := by
  simp [Date.iso]

theorem date_bounds (d : Date) : d.year < 10 ^ 4 ∧ d.month < 10 ^ 2 ∧ d.day < 10 ^ 2 := by
  obtain ⟨year, month, day, -, hy, -, hm, -, hd⟩ := d
  have hdays : daysInMonth year month ≤ 31 := by
    unfold daysInMonth
    repeat' split
    all_goals omega
  refine ⟨?_, ?_, ?_⟩ <;> dsimp only <;> omega

theorem drop_year (d : Date) (rest : List Char) :
    (d.iso ++ rest).drop 4 = '-' :: (padded 2 d.month ++ '-' :: (padded 2 d.day ++ rest)) := by
  rw [iso_append, List.drop_left' (length_padded (by decide) (date_bounds d).1)]

theorem length_iso (d : Date) : d.iso.length = 10 := by
  obtain ⟨hy, hm, hd⟩ := date_bounds d
  simp only [Date.iso, List.length_append, List.length_cons, length_padded (by decide : 0 < 4) hy,
    length_padded (by decide : 0 < 2) hm, length_padded (by decide : 0 < 2) hd]

theorem dateWidth?_iso (d : Date) (rest : List Char) : dateWidth? (d.iso ++ rest) = some 10 := by
  have hlength : (d.iso ++ rest).length ≠ 7 := by
    rw [List.length_append, length_iso]
    omega
  have hdash : front ((d.iso ++ rest).drop 4) = '-' := by
    rw [drop_year]
    rfl
  have hmonth : front ((d.iso ++ rest).drop 5) ≠ 'W' := by
    rw [← List.drop_drop (i := 1) (j := 4), drop_year]
    exact front_padded_ne (by decide) _ _ _
  rw [dateWidth?, if_neg hlength, if_pos hdash, if_neg hmonth]

theorem date?_iso (d : Date) (rest : List Char) : date? 10 (d.iso ++ rest) = some d := by
  obtain ⟨hy, hm, hd⟩ := date_bounds d
  have hyear := number?_padded (by decide) hy ('-' :: (padded 2 d.month ++ '-' :: (padded 2 d.day ++ rest)))
  have hmonth := number?_padded (by decide) hm ('-' :: (padded 2 d.day ++ rest))
  have hday := number?_padded (by decide) hd rest
  have hweek := front_padded_ne (show 'W'.isDigit = false by decide) 2 d.month ('-' :: (padded 2 d.day ++ rest))
  have hparts : Date.ofParts? d.year d.month d.day = some d := dif_pos d.valid
  simp only [date?, iso_append, hyear, Option.bind_eq_bind, Option.bind_some]
  simp only [front_cons, beq_self_eq_true, if_true, List.drop_one, List.tail_cons, if_neg hweek, hmonth,
    expect?, Option.bind_some, hday, hparts]

/-! ### Times of day -/

theorem joint_colon {rest : List Char} (h : rest ≠ []) : joint true (':' :: rest) = .component rest := by
  cases rest with
  | nil => exact absurd rfl h
  | cons c rest => rfl

theorem joint_point {rest : List Char} (h : rest ≠ []) : joint true ('.' :: rest) = .fraction rest := by
  cases rest with
  | nil => exact absurd rfl h
  | cons c rest => rfl

theorem fraction?_padded {n : Nat} (hn : n < 10 ^ 6) : fraction? (padded 6 n) = some (n, false) := by
  have hnumber := number?_padded (by decide) hn []
  rw [List.append_nil] at hnumber
  simp only [fraction?, length_padded (by decide : 0 < 6) hn, Nat.min_self, hnumber]
  simp [isUnread, front]

theorem reading?_minutes {hour minute : Nat} (hh : hour < 10 ^ 2) (hm : minute < 10 ^ 2) :
    reading? (padded 2 hour ++ ':' :: padded 2 minute) = some { hour, minute } := by
  have hhour := number?_padded (by decide) hh (':' :: padded 2 minute)
  have hminute := number?_padded (by decide) hm []
  rw [List.append_nil] at hminute
  simp only [reading?, hhour, Option.bind_eq_bind, Option.bind_some, front_cons, beq_self_eq_true,
    joint_colon (padded_ne_nil _ _), hminute]
  rfl

theorem reading?_seconds {hour minute second microsecond : Nat} (hh : hour < 10 ^ 2)
    (hm : minute < 10 ^ 2) (hs : second < 10 ^ 2) (hu : microsecond < 10 ^ 6) :
    reading? (padded 2 hour ++ ':' :: (padded 2 minute ++ ':' :: (padded 2 second ++ isoFraction microsecond))) =
      some { hour, minute, second, microsecond } := by
  have hhour := number?_padded (by decide) hh
    (':' :: (padded 2 minute ++ ':' :: (padded 2 second ++ isoFraction microsecond)))
  have hminute := number?_padded (by decide) hm (':' :: (padded 2 second ++ isoFraction microsecond))
  have hsecond := number?_padded (by decide) hs (isoFraction microsecond)
  have hne (w n : Nat) (rest : List Char) : padded w n ++ rest ≠ [] :=
    List.append_ne_nil_of_left_ne_nil (padded_ne_nil w n) rest
  simp only [reading?, hhour, Option.bind_eq_bind, Option.bind_some, front_cons, beq_self_eq_true,
    joint_colon (hne _ _ _), hminute, hsecond]
  by_cases hzero : microsecond = 0
  · subst hzero
    rfl
  · rw [isoFraction, if_neg hzero, joint_point (padded_ne_nil _ _)]
    simp only [withFraction?, fraction?_padded hu]
    rfl

theorem reading?_clock (c : Clock) : reading? c.iso =
    some { hour := c.hour, minute := c.minute, second := c.second, microsecond := c.microsecond } := by
  obtain ⟨hh, hm, hs, hu⟩ := c.valid
  have hread := reading?_seconds (by omega : c.hour < 10 ^ 2) (by omega : c.minute < 10 ^ 2)
    (by omega : c.second < 10 ^ 2) hu
  simpa [Clock.iso] using hread

end Iso

/-! ### Offsets -/

namespace Offset

/-- What is written of an offset behind its sign. -/
def unsigned (o : Offset) : List Char :=
  let n := o.microseconds.natAbs
  let seconds := n / microsecondsPerSecond
  padded 2 (seconds / 3600) ++ ':' :: (padded 2 (seconds / 60 % 60)
    ++ (if n % (60 * microsecondsPerSecond) = 0 then []
      else ':' :: (padded 2 (seconds % 60) ++ isoFraction (n % microsecondsPerSecond))))

theorem iso_eq (o : Offset) : o.iso = (if o.microseconds < 0 then '-' else '+') :: o.unsigned := by
  simp [iso, unsigned]

/-- Less than a second either way, and not universal time. -/
def isSlight (o : Offset) : Bool :=
  o.microseconds != 0 && decide (o.microseconds.natAbs < microsecondsPerSecond)

/-- The offset that is read where this one has been written. -/
def reread (o : Offset) : Offset := if o.isSlight then .utc else o

theorem reread_of_lt {o : Offset} (h : o.microseconds.natAbs < microsecondsPerSecond) : o.reread = .utc := by
  obtain ⟨n, hn⟩ := o
  by_cases hz : n = 0
  · subst hz
    rfl
  · exact if_pos (by simpa [isSlight, hz] using h)

theorem reread_of_not_lt {o : Offset} (h : ¬ o.microseconds.natAbs < microsecondsPerSecond) : o.reread = o :=
  if_neg (by simp [isSlight, h])

end Offset

namespace Moment

def isSlight (m : Moment) : Bool := m.offset.any (·.isSlight)

/-- The moment that is read where this one has been written. -/
def reread (m : Moment) : Moment := { m with offset := m.offset.map Offset.reread }

theorem reread_of_not_isSlight {m : Moment} (h : m.isSlight = false) : m.reread = m := by
  obtain ⟨date, clock, _ | o⟩ := m
  · rfl
  · have ho : o.reread = o := if_neg (by simpa [isSlight] using h)
    simp only [reread, Option.map_some, ho]

end Moment

namespace Iso

theorem reading?_unsigned (o : Offset) : reading? o.unsigned = some {
    hour := o.microseconds.natAbs / microsecondsPerSecond / 3600
    minute := o.microseconds.natAbs / microsecondsPerSecond / 60 % 60
    second := o.microseconds.natAbs / microsecondsPerSecond % 60
    microsecond := o.microseconds.natAbs % microsecondsPerSecond } := by
  have hvalid := o.valid
  simp only [Offset.unsigned]
  generalize o.microseconds.natAbs = n at hvalid ⊢
  have hhour : n / microsecondsPerSecond / 3600 < 10 ^ 2 := by
    simp only [microsecondsPerDay, microsecondsPerSecond] at hvalid ⊢
    omega
  have hfraction : n % microsecondsPerSecond < 10 ^ 6 := Nat.mod_lt _ (by decide)
  by_cases hrest : n % (60 * microsecondsPerSecond) = 0
  · -- neither seconds nor a fraction are written, and there are none
    have hnone : n / microsecondsPerSecond % 60 = 0 ∧ n % microsecondsPerSecond = 0 := by
      simp only [microsecondsPerSecond] at hrest ⊢
      omega
    rw [if_pos hrest, List.append_nil, reading?_minutes hhour (by omega), hnone.1, hnone.2]
  · rw [if_neg hrest]
    exact reading?_seconds hhour (by omega) (by omega) hfraction

theorem offset?_unsigned (o : Offset) : offset? (decide (o.microseconds < 0)) o.unsigned = some o.reread := by
  have hseconds (n : Nat) : 3600 * (n / 3600) + 60 * (n / 60 % 60) + n % 60 = n := by omega
  simp only [offset?, reading?_unsigned, Option.bind_eq_bind, Option.bind_some, hseconds,
    Nat.div_add_mod', Bool.false_eq_true, if_false]
  by_cases hsmall : o.microseconds.natAbs < microsecondsPerSecond
  · rw [Offset.reread_of_lt hsmall, if_pos (Nat.div_eq_of_lt hsmall)]
  · have hsize : (if decide (o.microseconds < 0) = true then -(o.microseconds.natAbs : Int)
        else o.microseconds.natAbs) = o.microseconds := by
      by_cases hneg : o.microseconds < 0
      · rw [if_pos (decide_eq_true hneg)]
        omega
      · rw [if_neg (by simpa using hneg)]
        omega
    have hne : o.microseconds.natAbs / microsecondsPerSecond ≠ 0 :=
      Nat.pos_iff_ne_zero.mp (Nat.div_pos (Nat.not_lt.mp hsmall) (by decide))
    rw [Offset.reread_of_not_lt hsmall, if_neg hne, hsize]
    exact dif_pos o.valid

/-! ### Moments -/

theorem mem_isoFraction {n : Nat} {c : Char} (h : c ∈ isoFraction n) : c.isDigit = true ∨ c = '.' := by
  unfold isoFraction at h
  split at h
  · cases h
  · exact (List.mem_cons.mp h).symm.imp_left isDigit_of_mem_padded

theorem mem_date_iso {d : Date} {c : Char} (h : c ∈ d.iso) : c.isDigit = true ∨ c = '-' := by
  simp only [Date.iso, List.mem_append, List.mem_cons] at h
  rcases h with (h | h | h) | h | h
  · exact .inl (isDigit_of_mem_padded h)
  · exact .inr h
  · exact .inl (isDigit_of_mem_padded h)
  · exact .inr h
  · exact .inl (isDigit_of_mem_padded h)

theorem mem_clock_iso {t : Clock} {c : Char} (h : c ∈ t.iso) : c.isDigit = true ∨ c = ':' ∨ c = '.' := by
  simp only [Clock.iso, List.mem_append, List.mem_cons] at h
  rcases h with ((h | h | h) | h | h) | h
  · exact .inl (isDigit_of_mem_padded h)
  · exact .inr (.inl h)
  · exact .inl (isDigit_of_mem_padded h)
  · exact .inr (.inl h)
  · exact .inl (isDigit_of_mem_padded h)
  · exact (mem_isoFraction h).imp_right .inr

theorem not_isOffsetMark_of_mem_iso {t : Clock} {c : Char} (h : c ∈ t.iso) : (!isOffsetMark c) = true := by
  rcases mem_clock_iso h with hd | rfl | rfl
  · simp only [isOffsetMark, Bool.not_eq_true', Bool.or_eq_false_iff, beq_eq_false_iff_ne]
    refine ⟨⟨?_, ?_⟩, ?_⟩ <;> rintro rfl <;> cases hd
  · rfl
  · rfl

theorem ofParts?_clock (t : Clock) : Clock.ofParts? t.hour t.minute t.second t.microsecond = some t :=
  dif_pos t.valid

theorem clock?_iso (t : Clock) : clock? t.iso = some (t, none) := by
  have hall : ∀ c ∈ t.iso, (!isOffsetMark c) = true := fun _ => not_isOffsetMark_of_mem_iso
  simp only [clock?, List.takeWhile_eq_self_iff.mpr hall, List.dropWhile_eq_nil_iff.mpr hall, reading?_clock,
    Option.bind_eq_bind, Option.bind_some, ofParts?_clock]
  rfl

theorem clock?_iso_append (t : Clock) {mark : Char} (hmark : mark = '+' ∨ mark = '-') (rest : List Char) :
    clock? (t.iso ++ mark :: rest) = (offset? (mark == '-') rest).bind fun o => some (t, some o) := by
  have hall : ∀ c ∈ t.iso, (!isOffsetMark c) = true := fun _ => not_isOffsetMark_of_mem_iso
  have hstop : (!isOffsetMark mark) = false := by rcases hmark with rfl | rfl <;> rfl
  simp only [clock?, List.takeWhile_append_of_pos hall, List.dropWhile_append_of_pos hall, List.takeWhile_cons,
    List.dropWhile_cons, hstop, Bool.false_eq_true, if_false, List.append_nil, reading?_clock,
    Option.bind_eq_bind, Option.bind_some, ofParts?_clock]
  rcases hmark with rfl | rfl <;> rfl

/-- A time of day and an offset are told apart by the sign of the offset. -/
theorem clock?_iso_offset (t : Clock) (o : Option Offset) :
    clock? (t.iso ++ (o.map Offset.iso).getD []) = some (t, o.map Offset.reread) := by
  cases o with
  | none =>
      rw [Option.map_none, Option.getD_none, List.append_nil]
      exact clock?_iso t
  | some o =>
      have hmark : (if o.microseconds < 0 then '-' else '+') = '+' ∨
          (if o.microseconds < 0 then '-' else '+') = '-' := by
        split
        · exact .inr rfl
        · exact .inl rfl
      have hsign : ((if o.microseconds < 0 then '-' else '+') == '-') = decide (o.microseconds < 0) := by
        by_cases hneg : o.microseconds < 0
        · rw [if_pos hneg, decide_eq_true hneg]
          rfl
        · rw [if_neg hneg, decide_eq_false hneg]
          rfl
      rw [Option.map_some, Option.getD_some, Offset.iso_eq, clock?_iso_append t hmark, hsign, offset?_unsigned]
      rfl

theorem moment?_iso (m : Moment) : moment? m.iso = some m.reread := by
  have hiso : m.iso = m.date.iso ++ 'T' :: (m.clock.iso ++ (m.offset.map Offset.iso).getD []) := by
    simp [Moment.iso, Moment.isoWith]
  have hlength : ¬ m.iso.length < 7 := by
    rw [hiso, List.length_append, length_iso]
    omega
  have hdrop : m.iso.drop 10 = 'T' :: (m.clock.iso ++ (m.offset.map Offset.iso).getD []) := by
    rw [hiso, List.drop_left' (length_iso _)]
  have hwidth : dateWidth? m.iso = some 10 := by rw [hiso, dateWidth?_iso]
  have hdate : date? 10 m.iso = some m.date := by rw [hiso, date?_iso]
  have hsize : 'T'.utf8Size - 1 = 0 := rfl
  simp only [moment?, if_neg hlength, hwidth, hdate, hdrop, hsize, List.drop_zero, clock?_iso_offset,
    Option.bind_eq_bind, Option.bind_some]
  rfl

end Iso

theorem utf8Size_of_isDigit {c : Char} (h : c.isDigit = true) : c.utf8Size = 1 := by
  have hbounds : 0x30 ≤ c.toNat ∧ c.toNat ≤ 0x39 := Char.isDigit_iff_toNat.mp h
  rw [Char.utf8Size_eq_one_iff, UInt32.le_iff_toNat_le]
  exact Nat.le_trans hbounds.2 (by decide)

theorem Offset.utf8Size_of_mem_iso {o : Offset} {c : Char} (h : c ∈ o.iso) : c.utf8Size = 1 := by
  simp only [iso_eq, unsigned, List.mem_append, List.mem_cons] at h
  rcases h with rfl | h | rfl | h | h
  · split <;> rfl
  · exact utf8Size_of_isDigit (isDigit_of_mem_padded h)
  · rfl
  · exact utf8Size_of_isDigit (isDigit_of_mem_padded h)
  · split at h
    · cases h
    · simp only [List.mem_append, List.mem_cons] at h
      rcases h with rfl | h | h
      · rfl
      · exact utf8Size_of_isDigit (isDigit_of_mem_padded h)
      · rcases Iso.mem_isoFraction h with h | rfl
        · exact utf8Size_of_isDigit h
        · rfl

theorem Moment.utf8Size_of_mem_iso {m : Moment} {c : Char} (h : c ∈ m.iso) : c.utf8Size = 1 := by
  simp only [iso, isoWith, List.mem_append, List.mem_cons] at h
  rcases h with (h | rfl | h) | h
  · rcases Iso.mem_date_iso h with h | rfl
    · exact utf8Size_of_isDigit h
    · rfl
  · rfl
  · rcases Iso.mem_clock_iso h with h | rfl | rfl
    · exact utf8Size_of_isDigit h
    · rfl
    · rfl
  · cases ho : m.offset with
    | none =>
        rw [ho] at h
        cases h
    | some o =>
        rw [ho] at h
        exact Offset.utf8Size_of_mem_iso h

/-- **Moments are read back.** -/
theorem Moment.read?_iso (m : Moment) : Moment.read? (String.ofList m.iso) = some m.reread := by
  rw [read?, String.toList_ofList, Text.units_eq_self fun _ => utf8Size_of_mem_iso]
  exact Iso.moment?_iso m

end Intake.Calendar
