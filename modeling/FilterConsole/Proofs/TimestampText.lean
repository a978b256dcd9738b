import FilterConsole.Proofs.DayNumbers
import FilterConsole.Proofs.Numerals

/-! Texts of instants. A text is read back, as a date with a time of day or as bare numbers, and what is read has its
meaning from the steps of the calendar alone. So a text shows one second, in either form. -/

namespace FilterConsole

def readYear? : List Char → Option Nat
  | '+' :: cs => readDigits? cs
  | cs => readDigits? cs

def readSigned? : List Char → Option Int
  | '-' :: cs => (readDigits? cs).map fun n => -(n : Int)
  | cs => (readDigits? cs).map fun n => (n : Int)

/-- Reads year, month and day with minus signs between them; a minus sign before them is the year's. -/
def Date.read? (cs : List Char) : Option Date :=
  match splitOn '-' cs with
  | [year, month, day] => do return ⟨← readYear? year, ← readDigits? month, ← readDigits? day⟩
  | [[], year, month, day] => do return ⟨-(← readDigits? year), ← readDigits? month, ← readDigits? day⟩
  | _ => none

def Moment.read? (s : String) : Option Moment :=
  match splitOn ' ' s.toList with
  | [date, time, ['U', 'T', 'C']] =>
    match splitOn ':' time with
    | [hour, minute, second] => do
      return ⟨← Date.read? date, ← readDigits? hour, ← readDigits? minute, ← readDigits? second⟩
    | _ => none
  | _ => none

def readBare? (s : String) : Option (Int × Nat) :=
  match splitOn '.' s.toList with
  | [secs, rest] =>
    match splitOn 's' rest with
    | [nanos, []] => do return (← readSigned? secs, ← readDigits? nanos)
    | _ => none
  | _ => none

/-- The moment is in the second with this number, counted from the start of 1970-01-01. A leap second is part of the
second before it. -/
def Moment.Denotes (m : Moment) (secs : Int) : Prop :=
  ∃ day, Date.IsDay m.date day ∧ m.hour < 24 ∧ m.minute < 60 ∧ m.second ≤ 60 ∧
    secs = day * 86400 + (m.hour * 3600 + m.minute * 60 + min m.second 59 : Nat)

def Shows (s : String) (secs : Int) : Prop :=
  (∃ m, Moment.read? s = some m ∧ m.Denotes secs) ∨ ∃ nanos, readBare? s = some (secs, nanos)

theorem readYear?_paddedNumeral (width n : Nat) : readYear? (paddedNumeral width n).toList = some n := by
  have hplus : '+' ∉ (paddedNumeral width n).toList := not_mem_paddedNumeral rfl width n
  unfold readYear?
  split
  · next heq => simp [heq] at hplus
  · exact readDigits?_paddedNumeral width n

theorem readSigned?_signedNumeral (i : Int) : readSigned? (signedNumeral i).toList = some i := by
  obtain ⟨n, ⟨rfl, htext⟩ | ⟨rfl, htext⟩⟩ := signedNumeral_cases i
  all_goals
    rw [htext]
    have hread := readDigits?_paddedNumeral 0 n
  · simp [readSigned?, hread]
  · have hminus : '-' ∉ (paddedNumeral 0 n).toList := not_mem_paddedNumeral rfl 0 n
    unfold readSigned?
    split
    · next heq => simp [heq] at hminus
    · simp [hread]

namespace Date

def text (d : Date) : String := yearText d.year ++ "-" ++ paddedNumeral 2 d.month ++ "-" ++ paddedNumeral 2 d.day

theorem splitOn_text (d : Date) :
    splitOn '-' d.text.toList =
      splitOn '-' (yearText d.year).toList ++ [(paddedNumeral 2 d.month).toList, (paddedNumeral 2 d.day).toList] := by
  have htext : d.text.toList = (yearText d.year).toList ++
      '-' :: ((paddedNumeral 2 d.month).toList ++ '-' :: (paddedNumeral 2 d.day).toList) := by
    simp [text]
  rw [htext, splitOn_append_cons, splitOn_append_cons, splitOn_paddedNumeral rfl, splitOn_paddedNumeral rfl]
  rfl

theorem read?_text (d : Date) : read? d.text.toList = some d := by
  have hdigits (n : Nat) : splitOn '-' (paddedNumeral 4 n).toList = [(paddedNumeral 4 n).toList] :=
    splitOn_paddedNumeral rfl 4 n
  obtain ⟨year, month, day⟩ := d
  obtain ⟨n, ⟨rfl, htext⟩ | ⟨rfl, htext | htext⟩⟩ := yearText_cases year
  · have hyear : splitOn '-' (yearText (-(n : Int))).toList = [[], (paddedNumeral 4 n).toList] := by
      simp [htext, splitOn_cons_self, hdigits]
    simp [read?, splitOn_text, hyear, readDigits?_paddedNumeral]
  · have hyear : splitOn '-' (yearText (n : Int)).toList = ['+' :: (paddedNumeral 0 n).toList] := by
      rw [htext, String.toList_append]
      exact splitOn_eq_singleton (by simp [not_mem_paddedNumeral])
    simp [read?, splitOn_text, hyear, readYear?, readDigits?_paddedNumeral]
  · simp [read?, splitOn_text, htext, hdigits, readYear?_paddedNumeral, readDigits?_paddedNumeral]

/-- Digits and signs only. -/
theorem not_mem_text (d : Date) {sep : Char} (hdigit : sep.isDigit = false) (hminus : sep ≠ '-') (hplus : sep ≠ '+') :
    sep ∉ d.text.toList := by
  simp [text, not_mem_yearText hdigit hminus hplus, not_mem_paddedNumeral hdigit, hminus]

end Date

namespace Moment

variable {m : Moment} {secs secs' : Int}

def time (m : Moment) : List Char :=
  (paddedNumeral 2 m.hour).toList ++
    ':' :: ((paddedNumeral 2 m.minute).toList ++ ':' :: (paddedNumeral 2 m.second).toList)

theorem toList_text (m : Moment) : m.text.toList = m.date.text.toList ++ ' ' :: (m.time ++ ' ' :: "UTC".toList) := by
  simp [text, Date.text, time]

theorem not_mem_time (m : Moment) {sep : Char} (hdigit : sep.isDigit = false) (hcolon : sep ≠ ':') : sep ∉ m.time := by
  simp [time, not_mem_paddedNumeral hdigit, hcolon]

theorem splitOn_text (m : Moment) : splitOn ' ' m.text.toList = [m.date.text.toList, m.time, "UTC".toList] := by
  have hdate : ' ' ∉ m.date.text.toList := m.date.not_mem_text rfl (by decide) (by decide)
  have htime : ' ' ∉ m.time := m.not_mem_time rfl (by decide)
  rw [toList_text, splitOn_append_cons, splitOn_append_cons, splitOn_eq_singleton hdate, splitOn_eq_singleton htime]
  rfl

theorem splitOn_time (m : Moment) :
    splitOn ':' m.time =
      [(paddedNumeral 2 m.hour).toList, (paddedNumeral 2 m.minute).toList, (paddedNumeral 2 m.second).toList] := by
  simp [time, splitOn_append_cons, splitOn_paddedNumeral]

theorem read?_text (m : Moment) : read? m.text = some m := by
  simp [read?, splitOn_text, splitOn_time, Date.read?_text, readDigits?_paddedNumeral]

theorem readBare?_text (m : Moment) : readBare? m.text = none := by
  have hpoint : '.' ∉ m.text.toList := by
    simp [toList_text, m.not_mem_time, m.date.not_mem_text]
  rw [readBare?, splitOn_eq_singleton hpoint]

theorem Denotes.unique (h : m.Denotes secs) (h' : m.Denotes secs') : secs = secs' := by
  obtain ⟨day, hday, -, -, -, rfl⟩ := h
  obtain ⟨day', hday', -, -, -, rfl⟩ := h'
  rw [← (Date.isDay_iff.mp hday).2, ← (Date.isDay_iff.mp hday').2]

end Moment

namespace Timestamp

variable {t : Timestamp}

theorem text_eq_moment_text (h : t.inCalendar = true) : t.text = t.moment.text := if_pos h

theorem toList_text_eq_bare (h : t.inCalendar = false) :
    t.text.toList =
      (signedNumeral t.secs.toInt).toList ++ '.' :: ((paddedNumeral 9 t.nanos.toNat).toList ++ ['s']) := by
  simp [text, h]

/-- A text without a date is read as the numbers themselves. -/
theorem readBare?_text (h : t.inCalendar = false) : readBare? t.text = some (t.secs.toInt, t.nanos.toNat) := by
  have hsecs : splitOn '.' (signedNumeral t.secs.toInt).toList = [(signedNumeral t.secs.toInt).toList] :=
    splitOn_eq_singleton (not_mem_signedNumeral rfl (by decide) _)
  have hrest : splitOn '.' ((paddedNumeral 9 t.nanos.toNat).toList ++ ['s']) =
      [(paddedNumeral 9 t.nanos.toNat).toList ++ ['s']] :=
    splitOn_eq_singleton (by simp [not_mem_paddedNumeral])
  have hnanos : splitOn 's' ((paddedNumeral 9 t.nanos.toNat).toList ++ ['s']) =
      [(paddedNumeral 9 t.nanos.toNat).toList, []] := by
    rw [splitOn_append_cons, splitOn_paddedNumeral rfl]
    rfl
  simp [readBare?, toList_text_eq_bare h, splitOn_append_cons, hsecs, hrest, hnanos, readSigned?_signedNumeral,
    readDigits?_paddedNumeral]

theorem moment_read?_text (h : t.inCalendar = false) : Moment.read? t.text = none := by
  have hblank : ' ' ∉ t.text.toList := by
    rw [toList_text_eq_bare h]
    simp [not_mem_signedNumeral, not_mem_paddedNumeral]
  rw [Moment.read?, splitOn_eq_singleton hblank]

/-- Nanoseconds of a second or more are less than two, and in the last second of a minute. -/
theorem nanos_of_inCalendar (h : t.inCalendar = true) :
    t.nanos.toNat < 1000000000 ∨ t.nanos.toNat < 2000000000 ∧ t.secs.toInt % 60 = 59 := by
  simp only [inCalendar, Bool.and_eq_true, Bool.or_eq_true, decide_eq_true_eq, beq_iff_eq] at h
  exact h.2

/-- The steps of the calendar lead to the second of an instant by its moment, and to no other. -/
theorem denotes_moment_iff (h : t.inCalendar = true) (secs : Int) : t.moment.Denotes secs ↔ secs = t.secs.toInt := by
  have hdenotes : t.moment.Denotes t.secs.toInt := by
    have hnanos := nanos_of_inCalendar h
    refine ⟨_, Date.isDay_ofDayNumber _, ?_⟩
    dsimp only [moment]
    omega
  exact ⟨fun hsecs => hsecs.unique hdenotes, fun hsecs => hsecs ▸ hdenotes⟩

theorem second_moment_eq_iff (h : t.inCalendar = true) : t.moment.second = 60 ↔ 1000000000 ≤ t.nanos.toNat := by
  have hnanos := nanos_of_inCalendar h
  dsimp only [moment]
  omega

theorem shows_text_iff (t : Timestamp) (secs : Int) : Shows t.text secs ↔ secs = t.secs.toInt := by
  rw [Shows]
  cases h : t.inCalendar with
  | true => simp [text_eq_moment_text h, Moment.read?_text, Moment.readBare?_text, denotes_moment_iff h]
  | false => simp [moment_read?_text h, readBare?_text h, eq_comm]

end Timestamp

/-- The text of an instant shows its second and no other, whatever its nanoseconds are. Where the calendar has it, the
text is read as one moment, which denotes that second, and has 60 for the seconds just if the nanoseconds make a second
or more; elsewhere it is read as the seconds and the nanoseconds themselves. So instants with one text are in one
second. -/
theorem timestamp_text_unambiguous :
    (∀ s t : Timestamp, s.text = t.text → s.secs = t.secs) ∧
      ∀ t : Timestamp, (∀ secs, Shows t.text secs ↔ secs = t.secs.toInt) ∧
        (t.inCalendar = true → ∃ m, Moment.read? t.text = some m ∧ (∀ secs, m.Denotes secs ↔ secs = t.secs.toInt) ∧
          (m.second = 60 ↔ 1000000000 ≤ t.nanos.toNat)) ∧
        (t.inCalendar = false → readBare? t.text = some (t.secs.toInt, t.nanos.toNat)) := by
  refine ⟨fun s t h => ?_, fun t => ⟨t.shows_text_iff, fun h => ⟨t.moment, ?_⟩, Timestamp.readBare?_text⟩⟩
  · have hshows : Shows t.text s.secs.toInt := h ▸ (s.shows_text_iff _).mpr rfl
    exact Int64.toInt_inj.mp ((t.shows_text_iff _).mp hshows)
  · rw [Timestamp.text_eq_moment_text h]
    exact ⟨t.moment.read?_text, Timestamp.denotes_moment_iff h, Timestamp.second_moment_eq_iff h⟩

/-- Two parts of the leap second at the end of the calendar's first minute, and the first second after its last. -/
theorem timestamp_text_unambiguous_far :
    let s : Timestamp := ⟨-8334601228741, 1000000000⟩
    let s' : Timestamp := ⟨-8334601228741, 1999999999⟩
    let t : Timestamp := ⟨8210266876800, 7⟩
    s.text = "-262143-01-01 00:00:60 UTC" ∧ s.text = s'.text ∧ s.secs = s'.secs ∧
      (∃ m, Moment.read? s.text = some m ∧ m.Denotes (-8334601228741) ∧ m.second = 60) ∧
      t.text = "8210266876800.000000007s" ∧ readBare? t.text = some (8210266876800, 7) := by
  intro s s' t
  have htext : s.text = s'.text := by decide +kernel
  obtain ⟨hsecs, hshown⟩ := timestamp_text_unambiguous
  obtain ⟨m, hread, hdenotes, hleap⟩ := (hshown s).2.1 (by decide +kernel)
  have hsecond : m.second = 60 := hleap.mpr (by decide)
  refine ⟨by decide +kernel, htext, hsecs s s' htext, ⟨m, hread, (hdenotes _).mpr (by decide), hsecond⟩, ?_⟩
  exact ⟨by decide +kernel, (hshown t).2.2 (by decide +kernel)⟩

end FilterConsole
