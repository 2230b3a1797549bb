import SpiBridge.Device.Pin
/-!
# Debounced levels

A level is taken once three samples in a row agree, and after 64 samples at the latest.  Main
statement: how many samples are taken, what comes of them, and when the level is reported as
unsettled.  Whether it has settled is asked in front of a sample and not behind the last one, so
a level that settles with the last sample is reported as unsettled too.
-/

namespace SpiBridge.Debounce

section

variable {σ : Type} (sample : σ → Except IoError Bool × σ) (s : σ)

def stateAfter : Nat → σ
  | 0 => s
  | n + 1 => (sample (stateAfter n)).2

def found (n : Nat) : Except IoError Bool :=
  (sample (stateAfter sample s n)).1

end

/-- The last of so many samples agree, and they are enough for a level. -/
def SettlesAt (findings : Nat → Except IoError Bool) (count : Nat) : Prop :=
  stableSamples ≤ count ∧
    ∃ level, ∀ i < count, count ≤ i + stableSamples → findings i = .ok level

structure Undecided (findings : Nat → Except IoError Bool) (count : Nat) : Prop where
  works : ∀ i < count, ∃ level, findings i = .ok level
  unsettled : ∀ m < count, ¬ SettlesAt findings m

structure Trails (findings : Nat → Except IoError Bool) (count run : Nat) (level : Bool) :
    Prop where
  positive : 0 < run
  le : run ≤ count
  agrees : ∀ i < count, count ≤ i + run → findings i = .ok level
  before : ∀ i, i + run + 1 = count → findings i = .ok !level

variable {findings : Nat → Except IoError Bool} {count run : Nat} {level next : Bool}

namespace Trails

theorem first (h : findings 0 = .ok level) : Trails findings 1 1 level := by
  refine ⟨by omega, by omega, fun i hi _ => ?_, fun i hi => by omega⟩
  obtain rfl : i = 0 := by omega
  exact h

theorem last (h : Trails findings count run level) : findings (count - 1) = .ok level := by
  have hpositive := h.positive
  have hle := h.le
  exact h.agrees _ (by omega) (by omega)

theorem succ (h : Trails findings count run level) (hnext : findings count = .ok next) :
    Trails findings (count + 1) (if next = level then run + 1 else 1) next := by
  have hpositive := h.positive
  have hle := h.le
  by_cases hsame : next = level
  · subst hsame
    rw [if_pos rfl]
    refine ⟨by omega, by omega, fun i hi hlast => ?_, fun i hi => h.before i (by omega)⟩
    rcases Nat.lt_or_eq_of_le (Nat.le_of_lt_succ hi) with hlt | rfl
    · exact h.agrees i hlt (by omega)
    · exact hnext
  · rw [if_neg hsame]
    refine ⟨by omega, by omega, fun i hi hlast => ?_, fun i hi => ?_⟩
    · obtain rfl : i = count := by omega
      exact hnext
    · rw [h.agrees i (by omega) (by omega), Bool.not_eq.2 hsame]

theorem settlesAt_iff (h : Trails findings count run level) :
    SettlesAt findings count ↔ stableSamples ≤ run := by
  have hpositive := h.positive
  have hle := h.le
  constructor
  · rintro ⟨hcount, agreed, hagreed⟩
    refine Nat.le_of_not_lt fun hshort => ?_
    -- The sample in front of a run that is too short is one of those that are to agree.
    have hfront := h.before (count - run - 1) (by omega)
    rw [hagreed _ (by omega) (by omega)] at hfront
    have hlast := h.last
    rw [hagreed _ (by omega) (by omega), Except.ok.inj hfront] at hlast
    simp at hlast
  · exact fun hlong => ⟨by omega, level, fun i hi hlast => h.agrees i hi (by omega)⟩

end Trails

theorem Undecided.succ (h : Undecided findings count) (hsettles : ¬ SettlesAt findings count)
    (hnext : findings count = .ok next) : Undecided findings (count + 1) := by
  constructor
  · intro i hi
    rcases Nat.lt_or_eq_of_le (Nat.le_of_lt_succ hi) with hlt | rfl
    · exact h.works i hlt
    · exact ⟨next, hnext⟩
  · intro m hm
    rcases Nat.lt_or_eq_of_le (Nat.le_of_lt_succ hm) with hlt | rfl
    · exact h.unsettled m hlt
    · exact hsettles

variable {σ : Type} {sample : σ → Except IoError Bool × σ} {s : σ}

/-- How sampling ends with a sample: it is the first that fails, or the first with which the level
settles, or the last that may be taken.  The level that it found is the result, and is reported as
unsettled if 64 samples were taken and the level had not settled before the last of them. -/
structure EndsWith (sample : σ → Except IoError Bool × σ) (s : σ) (last : Nat)
    (r : Sampling σ) : Prop where
  lt : last < maxSamples
  state : r.state = stateAfter sample s (last + 1)
  result : r.result = found sample s last
  works : ∀ i < last, ∃ level, found sample s i = .ok level
  unsettled : ∀ m ≤ last, ¬ SettlesAt (found sample s) m
  stops : (∃ e, found sample s last = .error e) ∨
    SettlesAt (found sample s) (last + 1) ∨ last + 1 = maxSamples
  reported : r.unsettled = true ↔ Undecided (found sample s) maxSamples

theorem endsWith_of_failure {e : IoError} {after : σ}
    (hundecided : Undecided (found sample s) count) (hlt : count < maxSamples)
    (hsettles : ¬ SettlesAt (found sample s) count)
    (hsample : sample (stateAfter sample s count) = (.error e, after)) :
    EndsWith sample s count ⟨.error e, false, after⟩ := by
  have hfound : found sample s count = .error e := congrArg Prod.fst hsample
  refine ⟨hlt, (congrArg Prod.snd hsample).symm, hfound.symm, hundecided.works, fun m hm => ?_,
    .inl ⟨e, hfound⟩, nofun, fun hlater => ?_⟩
  · rcases Nat.lt_or_eq_of_le hm with hlt | rfl
    · exact hundecided.unsettled m hlt
    · exact hsettles
  · obtain ⟨level, hworks⟩ := hlater.works count hlt
    rw [hfound] at hworks
    cases hworks

theorem endsWith_of_sampleOn {left : Nat} (hleft : count + left = maxSamples)
    (htrails : Trails (found sample s) count run level)
    (hundecided : Undecided (found sample s) count) :
    ∃ last, EndsWith sample s last
      (sampleOn sample left run level (stateAfter sample s count)) := by
  have hpositive := htrails.positive
  have hle := htrails.le
  have hlast : count - 1 + 1 = count := by omega
  -- By induction on the samples that may still be taken; the run tells whether the level settled.
  induction left generalizing count run level with
  | zero =>
    obtain rfl : count = maxSamples := hleft
    exact ⟨maxSamples - 1, by omega, by rw [hlast, sampleOn], htrails.last.symm,
      fun i hi => hundecided.works i (by omega), fun m hm => hundecided.unsettled m (by omega),
      .inr (.inr hlast), by simpa [sampleOn] using hundecided⟩
  | succ left ih =>
    rw [sampleOn]
    by_cases hlong : stableSamples ≤ run
    · have hsettles := htrails.settlesAt_iff.2 hlong
      rw [if_pos hlong]
      exact ⟨count - 1, by omega, by rw [hlast], htrails.last.symm,
        fun i hi => hundecided.works i (by omega), fun m hm => hundecided.unsettled m (by omega),
        .inr (.inl (by rwa [hlast])), nofun,
        fun hlater => absurd hsettles (hlater.unsettled count (by omega))⟩
    · have hsettles : ¬ SettlesAt (found sample s) count := mt htrails.settlesAt_iff.1 hlong
      rw [if_neg hlong]
      rcases hsample : sample (stateAfter sample s count) with ⟨e | next, after⟩
      · exact ⟨count, endsWith_of_failure hundecided (by omega) hsettles hsample⟩
      · have hfound : found sample s count = .ok next := congrArg Prod.fst hsample
        obtain rfl : stateAfter sample s (count + 1) = after := congrArg Prod.snd hsample
        have htrails' := htrails.succ hfound
        exact ih (by omega) htrails' (hundecided.succ hsettles hfound) htrails'.positive
          htrails'.le (by omega)

/-- Sampling ends with the first sample that fails, or with the first one, from the third on, that
agrees with the two before it, or with the 64th, and its result is what that sample found.  The
level is reported as unsettled if and only if 64 samples were taken and no three in a row agree
among the first 63 of them. -/
theorem endsWith_of_sampled (sample : σ → Except IoError Bool × σ) (s : σ) :
    ∃ last, EndsWith sample s last (sampled sample s) := by
  have hstart : ¬ SettlesAt (found sample s) 0 := fun h => absurd h.1 (by decide)
  have hundecided : Undecided (found sample s) 0 := ⟨nofun, nofun⟩
  unfold sampled
  rcases hsample : sample s with ⟨e | level, after⟩
  · exact ⟨0, endsWith_of_failure hundecided (by decide) hstart hsample⟩
  · have hfound : found sample s 0 = .ok level := congrArg Prod.fst hsample
    obtain rfl : stateAfter sample s 1 = after := congrArg Prod.snd hsample
    exact endsWith_of_sampleOn rfl (.first hfound) (hundecided.succ hstart hfound)

/-- Levels that change with every sample up to the 61st, and then no more. -/
def lateSample (count : Nat) : Except IoError Bool × Nat :=
  (.ok (count < 61 && count % 2 == 0), count + 1)

/-- A level that settles with the last sample is reported as unsettled. -/
theorem not_settled_of_late :
    ¬ ((sampled lateSample 0).unsettled = true ↔
      ∀ m ≤ maxSamples, ¬ SettlesAt (found lateSample 0) m) := by
  have hreported : (sampled lateSample 0).unsettled = true := by decide
  have hsettles : SettlesAt (found lateSample 0) maxSamples := by
    refine ⟨by decide, false, fun i hi hlast => ?_⟩
    unfold maxSamples stableSamples at *
    obtain rfl | rfl | rfl : i = 61 ∨ i = 62 ∨ i = 63 := by omega
    all_goals rfl
  exact fun h => h.1 hreported maxSamples (Nat.le_refl _) hsettles

end SpiBridge.Debounce
