import Mathlib.Data.List.Induction
import Mathlib.Data.List.TakeWhile
import Mathlib.Data.Nat.Digits.Defs
import SpiBridge.CommandLine.Parse
/-!
# How durations are written

A duration is written as decimal digits and a unit.  Main statement: what is read are the texts of
this form, with blanks at their ends or without, and each as the length of time that it says; every
other text is refused, for the first of three reasons that applies to it.
-/

namespace SpiBridge

/-- A text without the blanks at its two ends. -/
structure Text.IsTrimmed (whole text : List Char) : Prop where
  parts : ∃ front back, whole = front ++ text ++ back ∧ ∀ c ∈ front ++ back, isBlank c = true
  head : ∀ c ∈ text.head?, isBlank c = false
  last : ∀ c ∈ text.getLast?, isBlank c = false

theorem Text.isTrimmed_trim (whole : List Char) : IsTrimmed whole (trim whole) := by
  refine ⟨?_, fun _ => not_isBlank_of_head?_trim, fun _ => not_isBlank_of_getLast?_trim⟩
  let rest := whole.dropWhile isBlank
  refine ⟨whole.takeWhile isBlank, (rest.reverse.takeWhile isBlank).reverse, ?_, fun c hc => ?_⟩
  · have hback : trim whole ++ (rest.reverse.takeWhile isBlank).reverse = rest := by
      rw [trim, ← List.reverse_append, List.takeWhile_append_dropWhile, List.reverse_reverse]
    rw [List.append_assoc, hback, List.takeWhile_append_dropWhile]
  · rw [List.mem_append, List.mem_reverse] at hc
    exact hc.elim List.mem_takeWhile_imp List.mem_takeWhile_imp

private theorem Text.dropWhile_eq_self {text : List Char}
    (hhead : ∀ c ∈ text.head?, isBlank c = false) : text.dropWhile isBlank = text := by
  cases text with
  | nil => rfl
  | cons c rest => simp [hhead c (by simp)]

theorem Text.isTrimmed_iff {whole text : List Char} :
    IsTrimmed whole text ↔ text = trim whole := by
  constructor
  · rintro ⟨⟨front, back, rfl, hblank⟩, hhead, hlast⟩
    have hfront : ∀ c ∈ front, isBlank c = true := fun c hc => hblank c (by simp [hc])
    have hback : ∀ c ∈ back.reverse, isBlank c = true := fun c hc => hblank c (by simp_all)
    have hlast' : text.reverse.dropWhile isBlank = text.reverse :=
      dropWhile_eq_self (by rwa [List.head?_reverse])
    rw [trim, List.append_assoc, List.dropWhile_append_of_pos hfront]
    cases htext : text with
    | nil =>
      have hnone : back.dropWhile isBlank = [] := by
        rw [List.dropWhile_eq_nil_iff]
        exact fun c hc => hback c (List.mem_reverse.2 hc)
      rw [List.nil_append, hnone]
      rfl
    | cons c rest =>
      have hstays : (text ++ back).dropWhile isBlank = text ++ back :=
        dropWhile_eq_self (by simpa [htext] using hhead)
      rw [← htext, hstays, List.reverse_append, List.dropWhile_append_of_pos hback, hlast',
        List.reverse_reverse]
  · rintro rfl
    exact isTrimmed_trim whole

namespace Duration

open CommandLine (Argument Refusal)

def IsDigit (c : Char) : Prop :=
  '0' ≤ c ∧ c ≤ '9'

instance (c : Char) : Decidable (IsDigit c) :=
  inferInstanceAs (Decidable (_ ∧ _))

def worth (digits : List Char) : Nat :=
  Nat.ofDigits 10 (digits.reverse.map fun c => c.toNat - '0'.toNat)

structure Splits (text digits unit : List Char) : Prop where
  parts : text = digits ++ unit
  front : ∀ c ∈ digits, IsDigit c
  next : ∀ c ∈ unit.head?, ¬ IsDigit c

structure IsAmount (digits : List Char) : Prop where
  ne_nil : digits ≠ []
  all : ∀ c ∈ digits, IsDigit c
  bound : worth digits < 0x1_0000_0000_0000_0000

/-- The nanoseconds in an amount of a unit.  Minutes are cut off at the largest number of
seconds. -/
inductive Measures (amount : Nat) : List Char → Nat → Prop
  | bare : Measures amount [] (amount * 1_000_000_000)
  | seconds : Measures amount ['s'] (amount * 1_000_000_000)
  | millis : Measures amount ['m', 's'] (amount * 1_000_000)
  | minutes : Measures amount ['m']
      (min (60 * amount) (0x1_0000_0000_0000_0000 - 1) * 1_000_000_000)

/-- A text of the form in which durations are written, and the duration. -/
inductive Written : List Char → Duration → Prop
  | mk {digits unit : List Char} {d : Duration} (hamount : IsAmount digits)
      (hunit : Measures (worth digits) unit d.nanos) (hpositive : 0 < worth digits) :
      Written (digits ++ unit) d

/-- Why a text is not of this form, with the words in which it is refused. -/
inductive Refused (text : List Char) : String → Prop
  | noAmount {digits unit : List Char} (hsplits : Splits text digits unit)
      (hamount : ¬ IsAmount digits) :
      Refused text s!"'{String.ofList text}' is not a duration"
  | unknownUnit {digits unit : List Char} (hsplits : Splits text digits unit)
      (hamount : IsAmount digits) (hunit : ∀ nanos, ¬ Measures (worth digits) unit nanos) :
      Refused text s!"unknown duration unit '{String.ofList unit}' in '{String.ofList text}'"
  | notPositive {digits unit : List Char} {nanos : Nat} (hsplits : Splits text digits unit)
      (hamount : IsAmount digits) (hunit : Measures (worth digits) unit nanos)
      (hzero : worth digits = 0) :
      Refused text s!"'{String.ofList text}' is not a positive duration"

variable {text digits unit : List Char} {amount nanos : Nat} {d : Duration} {message : String}
  {c : Char}

/-! ## Digits -/

theorem isDigit_iff : c.isDigit = true ↔ IsDigit c := by
  simp [Char.isDigit, IsDigit, Char.le_def]

theorem decimalValue_eq (digits : List Char) : decimalValue digits = worth digits := by
  unfold decimalValue worth
  induction digits using List.reverseRecOn with
  | nil => rfl
  | append_singleton digits c ih =>
    rw [List.foldl_append, ih]
    simp [Nat.ofDigits_cons, Nat.add_comm]

theorem worth_zeros (n : Nat) (digits : List Char) :
    worth (List.replicate n '0' ++ digits) = worth digits := by
  simp [worth, Nat.ofDigits_append]

theorem splits_takeWhile (text : List Char) :
    Splits text (text.takeWhile Char.isDigit) (text.dropWhile Char.isDigit) where
  parts := List.takeWhile_append_dropWhile.symm
  front c hc := isDigit_iff.1 (List.mem_takeWhile_imp hc)
  next c hc := by
    have hstop := List.head?_dropWhile_not Char.isDigit text
    rw [Option.mem_def.1 hc] at hstop
    rw [← isDigit_iff]
    simpa using hstop

namespace Splits

theorem takeWhile_eq (h : Splits text digits unit) : text.takeWhile Char.isDigit = digits := by
  have hdigits : ∀ c ∈ digits, c.isDigit = true := fun c hc => isDigit_iff.2 (h.front c hc)
  rw [h.parts, List.takeWhile_append_of_pos hdigits]
  cases hunit : unit with
  | nil => simp
  | cons c rest =>
    have hc : ¬ c.isDigit = true := by
      rw [isDigit_iff]
      exact h.next c (by simp [hunit])
    simp [hc]

theorem dropWhile_eq (h : Splits text digits unit) : text.dropWhile Char.isDigit = unit := by
  have hparts := List.takeWhile_append_dropWhile (p := Char.isDigit) (l := text)
  rw [h.takeWhile_eq] at hparts
  exact List.append_cancel_left (hparts.trans h.parts)

end Splits

/-! ## Units -/

theorem eq_of_nanos {d d' : Duration} (h : d.nanos = d'.nanos) : d = d' := by
  cases d
  cases d'
  cases h
  rfl

theorem ofAmount?_eq_some_iff {amount : UInt64} :
    ofAmount? amount unit = some d ↔ Measures amount.toNat unit d.nanos := by
  constructor
  · intro h
    unfold ofAmount? at h
    split at h
    · cases h
      exact .bare
    · cases h
      exact .seconds
    · cases h
      exact .millis
    · cases h
      exact .minutes
    · cases h
  · intro h
    generalize hnanos : d.nanos = nanos at h
    cases h with
    | bare | seconds | millis | minutes => exact congrArg some (eq_of_nanos hnanos.symm)

theorem nanos_eq_zero_iff (h : Measures amount unit nanos) : nanos = 0 ↔ amount = 0 := by
  cases h <;> omega

theorem not_isDigit_of_measures (h : Measures amount unit nanos) :
    ∀ c ∈ unit.head?, ¬ IsDigit c := by
  cases h <;> simp [IsDigit]

theorem nanos_lt_of_measures {digits : List Char} (hamount : IsAmount digits)
    (h : Measures (worth digits) unit nanos) : nanos < 0x1_0000_0000_0000_0000 * 1_000_000_000 := by
  have hbound := hamount.bound
  cases h <;> omega

/-! ## Reading -/

theorem parseTrimmed_of_not_isAmount (h : Splits text digits unit) (hamount : ¬ IsAmount digits) :
    parseTrimmed text = .error (.noAmount (String.ofList text)) := by
  unfold parseTrimmed
  simp only [h.takeWhile_eq, decimalValue_eq]
  rw [if_pos]
  by_contra hnot
  rw [not_or, Nat.not_le] at hnot
  exact hamount ⟨hnot.1, h.front, hnot.2⟩

theorem parseTrimmed_of_isAmount (h : Splits text digits unit) (hamount : IsAmount digits) :
    parseTrimmed text =
      match ofAmount? (UInt64.ofNat (worth digits)) unit with
      | none => .error (.unknownUnit (String.ofList unit) (String.ofList text))
      | some d => if d.nanos = 0 then .error (.notPositive (String.ofList text)) else .ok d := by
  unfold parseTrimmed
  simp only [h.takeWhile_eq, h.dropWhile_eq, decimalValue_eq]
  refine if_neg ?_
  rintro (hnil | hlarge)
  · exact hamount.ne_nil hnil
  · exact Nat.not_lt.2 hlarge hamount.bound

theorem ofAmount?_worth (hamount : IsAmount digits) :
    ofAmount? (UInt64.ofNat (worth digits)) unit = some d ↔
      Measures (worth digits) unit d.nanos := by
  have hkept : (UInt64.ofNat (worth digits)).toNat = worth digits :=
    UInt64.toNat_ofNat_of_lt' hamount.bound
  rw [ofAmount?_eq_some_iff, hkept]

theorem parseTrimmed_of_written (h : Written text d) : parseTrimmed text = .ok d := by
  obtain ⟨hamount, hunit, hpositive⟩ := h
  rename_i digits unit
  have hsplits : Splits (digits ++ unit) digits unit :=
    ⟨rfl, hamount.all, not_isDigit_of_measures hunit⟩
  have hnanos : d.nanos ≠ 0 := by
    rw [ne_eq, nanos_eq_zero_iff hunit]
    omega
  rw [parseTrimmed_of_isAmount hsplits hamount, (ofAmount?_worth hamount).2 hunit]
  exact if_neg hnanos

theorem exists_error_of_refused (h : Refused text message) :
    ∃ e, parseTrimmed text = .error e ∧ e.message = message := by
  cases h with
  | noAmount hsplits hamount => exact ⟨_, parseTrimmed_of_not_isAmount hsplits hamount, rfl⟩
  | @unknownUnit digits unit hsplits hamount hunit =>
    have hnone : ofAmount? (UInt64.ofNat (worth digits)) unit = none := by
      rw [Option.eq_none_iff_forall_ne_some]
      exact fun d hd => hunit d.nanos ((ofAmount?_worth hamount).1 hd)
    rw [parseTrimmed_of_isAmount hsplits hamount, hnone]
    exact ⟨_, rfl, rfl⟩
  | @notPositive digits unit nanos hsplits hamount hunit hzero =>
    let d : Duration := ⟨nanos, nanos_lt_of_measures hamount hunit⟩
    have hsome : ofAmount? (UInt64.ofNat (worth digits)) unit = some d :=
      (ofAmount?_worth hamount).2 hunit
    have hnanos : d.nanos = 0 := (nanos_eq_zero_iff hunit).2 hzero
    rw [parseTrimmed_of_isAmount hsplits hamount, hsome]
    simp only [if_pos hnanos]
    exact ⟨_, rfl, rfl⟩

theorem written_or_refused (text : List Char) :
    (∃ d, Written text d) ∨ ∃ message, Refused text message := by
  have hsplits := splits_takeWhile text
  generalize text.takeWhile Char.isDigit = digits at hsplits
  generalize text.dropWhile Char.isDigit = unit at hsplits
  by_cases hamount : IsAmount digits
  · by_cases hunit : ∃ nanos, Measures (worth digits) unit nanos
    · obtain ⟨nanos, hunit⟩ := hunit
      rcases Nat.eq_zero_or_pos (worth digits) with hzero | hpositive
      · exact .inr ⟨_, .notPositive hsplits hamount hunit hzero⟩
      · rw [hsplits.parts]
        exact .inl ⟨⟨nanos, nanos_lt_of_measures hamount hunit⟩, hamount, hunit, hpositive⟩
    · exact .inr ⟨_, .unknownUnit hsplits hamount fun nanos h => hunit ⟨nanos, h⟩⟩
  · exact .inr ⟨_, .noAmount hsplits hamount⟩

theorem parseTrimmed_eq_ok_iff : parseTrimmed text = .ok d ↔ Written text d := by
  constructor
  · intro h
    rcases written_or_refused text with ⟨d', hwritten⟩ | ⟨message, hrefused⟩
    · rw [parseTrimmed_of_written hwritten] at h
      exact Except.ok.inj h ▸ hwritten
    · obtain ⟨e, herror, -⟩ := exists_error_of_refused hrefused
      rw [herror] at h
      cases h
  · exact parseTrimmed_of_written

theorem exists_error_iff :
    (∃ e, parseTrimmed text = .error e ∧ e.message = message) ↔ Refused text message := by
  constructor
  · rintro ⟨e, h, rfl⟩
    rcases written_or_refused text with ⟨d, hwritten⟩ | ⟨message, hrefused⟩
    · rw [parseTrimmed_of_written hwritten] at h
      cases h
    · obtain ⟨e', herror, rfl⟩ := exists_error_of_refused hrefused
      obtain rfl := Except.error.inj (h.symm.trans herror)
      exact hrefused
  · exact exists_error_of_refused

namespace Written

theorem nanos_pos (h : Written text d) : 0 < d.nanos := by
  obtain ⟨-, hunit, hpositive⟩ := h
  rw [Nat.pos_iff_ne_zero, ne_eq, nanos_eq_zero_iff hunit]
  omega

theorem zeros (n : Nat) (h : Written text d) : Written (List.replicate n '0' ++ text) d := by
  obtain ⟨hamount, hunit, hpositive⟩ := h
  rename_i digits unit
  rw [← worth_zeros n digits] at hunit hpositive
  rw [← List.append_assoc]
  refine .mk ⟨?_, fun c hc => ?_, ?_⟩ hunit hpositive
  · simp [hamount.ne_nil]
  · rcases List.mem_append.1 hc with hc | hc
    · rw [List.eq_of_mem_replicate hc]
      exact ⟨by decide, by decide⟩
    · exact hamount.all c hc
  · rw [worth_zeros]
    exact hamount.bound

theorem isDigit_or_eq (h : Written text d) : ∀ c ∈ text, IsDigit c ∨ c = 'm' ∨ c = 's' := by
  obtain ⟨hamount, hunit, -⟩ := h
  intro c hc
  rcases List.mem_append.1 hc with hc | hc
  · exact .inl (hamount.all c hc)
  · generalize d.nanos = nanos at hunit
    cases hunit <;> simp_all

end Written

theorem code_of_readDuration {a : Argument} {input : String} {e : DurationError}
    (h : parse input = .error e) :
    a.readDuration input = .error (.badDuration a input e) ∧
      (Refusal.badDuration a input e).code = 1 := by
  rw [Argument.readDuration, h]
  exact ⟨rfl, rfl⟩

/-- Reading accepts exactly the durations that are written, behind and in front of any blanks, and
takes each for what it says, which is never nothing.  There may be any number of zeros in front, but
no characters other than digits and the letters of the units.  Every other text is refused with a
reason and, as a setting of the program, with the code of a failure. -/
theorem parse_accepts_written (input : String) :
    ∃ text, (∀ trimmed, Text.IsTrimmed input.toList trimmed ↔ trimmed = text) ∧
      (∀ d, parse input = .ok d ↔ Written text d) ∧
      (∀ d, Written text d → 0 < d.nanos ∧ (∀ c ∈ text, IsDigit c ∨ c = 'm' ∨ c = 's') ∧
        ∀ n, Written (List.replicate n '0' ++ text) d) ∧
      (∀ message, (∃ e, parse input = .error e ∧ e.message = message) ↔ Refused text message) ∧
      ∀ (a : Argument) (e : DurationError), parse input = .error e →
        a.readDuration input = .error (.badDuration a input e) ∧
          (Refusal.badDuration a input e).code = 1 :=
  ⟨Text.trim input.toList, fun _ => Text.isTrimmed_iff, fun _ => parseTrimmed_eq_ok_iff,
    fun _ h => ⟨h.nanos_pos, h.isDigit_or_eq, fun n => h.zeros n⟩, fun _ => exists_error_iff,
    fun _ _ => code_of_readDuration⟩

/-- The least number of minutes that is cut off, with a zero in front and between blanks. -/
theorem parse_accepts_written_of_minutes :
    ∃ d, parse "\u3000 0307445734561825861m\n" = .ok d ∧
      d.nanos = (0x1_0000_0000_0000_0000 - 1) * 1_000_000_000 ∧ 0 < d.nanos := by
  obtain ⟨text, htrimmed, hok, hwritten, -⟩ :=
    parse_accepts_written "\u3000 0307445734561825861m\n"
  let digits := '0' :: "307445734561825861".toList
  have htext : digits ++ ['m'] = text := by
    refine (htrimmed _).1 ⟨⟨['\u3000', ' '], ['\n'], by decide +kernel, ?_⟩, ?_, ?_⟩
    · exact List.all_eq_true.1 (by decide)
    · rintro c ⟨⟩
      decide
    · intro c hc
      obtain rfl : 'm' = c := by simpa using hc
      decide
  have hworth : worth digits = 307445734561825861 := by decide +kernel
  have hdigits : digits.all Char.isDigit = true := by decide +kernel
  have hamount : IsAmount digits :=
    ⟨by decide, fun c hc => isDigit_iff.1 (List.all_eq_true.1 hdigits c hc),
      by rw [hworth]; decide⟩
  have hform : Written text (ofMinutes 307445734561825861) := by
    rw [← htext]
    refine .mk hamount ?_ (by rw [hworth]; decide)
    rw [hworth]
    exact .minutes
  exact ⟨_, (hok _).2 hform, by decide, (hwritten _ hform).1⟩

end Duration

end SpiBridge
