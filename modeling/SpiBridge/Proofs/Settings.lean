import SpiBridge.CommandLine.Parse
/-!
# Accepted settings

Settings come from a command line and an environment, argument after argument, and what the
command line leaves open is set in advance.  Main statements: what settling one argument keeps
holds of all settings that are accepted, and so each of their durations was read from a text; and
an argument with a value, alone on the command line, is settled with just that value.
-/

namespace SpiBridge.CommandLine

/-- A property of settings that settling an argument keeps. -/
def Kept (P : Options → Prop) : Prop :=
  ∀ ⦃a value o o'⦄, Argument.settle a value o = .ok o' → P o → P o'

theorem exists_of_bind_eq_ok {ε α β : Type} {x : Except ε α} {f : α → Except ε β} {b : β}
    (h : x >>= f = .ok b) : ∃ a, x = .ok a ∧ f a = .ok b := by
  cases x with
  | error => cases h
  | ok a => exact ⟨a, rfl, h⟩

namespace Reading

variable {P : Options → Prop} {r r' : Reading} {a : Argument} {value arg : String}

theorem kept_of_accept (hkept : Kept P) (h : r.accept a value = .ok r') (hr : P r.options) :
    P r'.options := by
  unfold accept at h
  split at h
  · cases h
  · obtain ⟨o, hsettle, h⟩ := exists_of_bind_eq_ok h
    cases h
    exact hkept hsettle hr

theorem kept_of_settleWaiting (hkept : Kept P) (h : r.settleWaiting = .ok r') (hr : P r.options) :
    P r'.options := by
  unfold settleWaiting at h
  split at h
  · cases h
    exact hr
  · cases h
  · exact kept_of_accept hkept h hr

theorem kept_of_readLong {text : List Char} (hkept : Kept P) (h : r.readLong text = .ok r')
    (hr : P r.options) : P r'.options := by
  unfold readLong at h
  simp only at h
  split at h
  · cases h
  split at h
  · obtain ⟨settled, hsettled, h⟩ := exists_of_bind_eq_ok h
    have hwaited := kept_of_settleWaiting hkept hsettled hr
    split at h
    · exact kept_of_accept hkept h hwaited
    · cases h
      exact hwaited
  · split at h
    · cases h
    · obtain ⟨settled, hsettled, h⟩ := exists_of_bind_eq_ok h
      exact kept_of_accept hkept h (kept_of_settleWaiting hkept hsettled hr)

theorem kept_of_readShort {first : Char} (hkept : Kept P) (h : r.readShort first = .ok r')
    (hr : P r.options) : P r'.options := by
  unfold readShort at h
  split at h
  · cases h
  · obtain ⟨settled, hsettled, h⟩ := exists_of_bind_eq_ok h
    exact kept_of_accept hkept h (kept_of_settleWaiting hkept hsettled hr)

theorem options_of_readOperand (h : r.readOperand arg = .ok r') : r'.options = r.options := by
  unfold readOperand at h
  split at h <;> cases h
  rfl

theorem kept_of_read (hkept : Kept P) (h : r.read arg = .ok r') (hr : P r.options) :
    P r'.options := by
  unfold read at h
  split at h
  · cases h
  split at h
  · cases h
    exact hr
  · exact kept_of_readLong hkept h hr
  · exact kept_of_readShort hkept h hr
  · rwa [options_of_readOperand h]

theorem kept_of_readVariable {environment : List (String × String)} (hkept : Kept P)
    (h : r.readVariable environment a = .ok r') (hr : P r.options) : P r'.options := by
  unfold readVariable at h
  split at h
  · split at h
    · cases h
      exact hr
    · exact kept_of_accept hkept h hr
  · cases h
    exact hr

theorem kept_of_foldlM {α : Type} {f : Reading → α → Except Refusal Reading} {xs : List α}
    (hstep : ∀ ⦃r r' x⦄, f r x = .ok r' → P r.options → P r'.options)
    (h : xs.foldlM f r = .ok r') (hr : P r.options) : P r'.options := by
  induction xs generalizing r with
  | nil =>
    cases h
    exact hr
  | cons x xs ih =>
    rw [List.foldlM_cons] at h
    obtain ⟨next, hnext, h⟩ := exists_of_bind_eq_ok h
    exact ih h (hstep hnext hr)

end Reading

variable {P : Options → Prop} {args : List String} {environment : List (String × String)}
  {o : Options}

theorem kept_of_parse (hkept : Kept P) (h : parse args environment = .ok o) (hdefault : P {}) :
    P o := by
  unfold parse at h
  obtain ⟨r, hread, h⟩ := exists_of_bind_eq_ok h
  obtain ⟨r', hwaited, h⟩ := exists_of_bind_eq_ok h
  obtain ⟨r'', hvariables, h⟩ := exists_of_bind_eq_ok h
  cases h
  have hread' := Reading.kept_of_foldlM (fun _ _ _ => Reading.kept_of_read hkept) hread hdefault
  exact Reading.kept_of_foldlM (fun _ _ _ => Reading.kept_of_readVariable hkept) hvariables
    (Reading.kept_of_settleWaiting hkept hwaited hread')

/-! ## One argument -/

theorem cutAtEquals_append {name : List Char} (value : List Char) (hname : '=' ∉ name) :
    Reading.cutAtEquals (name ++ '=' :: value) =
      (String.ofList name, some (String.ofList value)) := by
  have hpass : ∀ c ∈ name, decide (c ≠ '=') = true :=
    fun c hc => decide_eq_true fun h => hname (h ▸ hc)
  unfold Reading.cutAtEquals
  rw [List.dropWhile_append_of_pos hpass, List.takeWhile_append_of_pos hpass]
  simp

theorem equals_notMem_long (a : Argument) : '=' ∉ a.long.toList := by
  cases a <;> decide

theorem find?_long (a : Argument) : Argument.all.find? (·.long == a.long) = some a := by
  cases a <;> decide

theorem toList_setting (a : Argument) (value : String) :
    (s!"--{a.long}={value}").toList = '-' :: '-' :: (a.long.toList ++ '=' :: value.toList) := by
  show ("--" ++ a.long ++ "=" ++ value).toList = _
  simp only [String.toList_append]
  simp

theorem readLong_setting {a : Argument} (ha : a.valueName?.isSome = true) (value : String) :
    Reading.readLong {} (a.long.toList ++ '=' :: value.toList) = Reading.accept {} a value := by
  rw [Reading.readLong, cutAtEquals_append _ (equals_notMem_long a)]
  simp only [String.ofList_toList, find?_long, ha, if_true]
  rfl

theorem read_setting {a : Argument} (ha : a.valueName?.isSome = true) (value : String) :
    Reading.read {} s!"--{a.long}={value}" = Reading.accept {} a value := by
  -- A third character tells the text from two lone hyphens.
  obtain ⟨third, rest, hrest⟩ : ∃ third rest,
      a.long.toList ++ '=' :: value.toList = third :: rest :=
    List.exists_cons_of_ne_nil (by simp)
  rw [← readLong_setting ha, hrest]
  unfold Reading.read
  rw [toList_setting, hrest]
  rfl

theorem parse_singleton {a : Argument} (ha : a.valueName?.isSome = true) (value : String) :
    parse [s!"--{a.long}={value}"] [] = a.settle value {} := by
  unfold parse
  rw [List.foldlM_cons, read_setting ha]
  unfold Reading.accept
  cases a.settle value {} <;> rfl

/-! ## Durations -/

/-- Each duration of the settings is what some text is read as. -/
structure Options.IsTimed (o : Options) : Prop where
  answer : ∃ text, Duration.parse text = .ok o.answerTimeout
  poll : ∃ text, Duration.parse text = .ok o.pollInterval
  write : ∃ text, Duration.parse text = .ok o.writeTimeout

theorem readDuration_eq_ok_iff {a : Argument} {value : String} {d : Duration} :
    a.readDuration value = .ok d ↔ Duration.parse value = .ok d := by
  unfold Argument.readDuration
  cases Duration.parse value with
  | error => exact ⟨nofun, nofun⟩
  | ok =>
    constructor
    · rintro ⟨⟩
      rfl
    · rintro ⟨⟩
      rfl

theorem kept_isTimed : Kept Options.IsTimed := by
  intro a value o o' h ho
  cases a
  case answerTimeout =>
    obtain ⟨d, hread, h⟩ := exists_of_bind_eq_ok h
    cases h
    exact { ho with answer := ⟨value, readDuration_eq_ok_iff.1 hread⟩ }
  case pollInterval =>
    obtain ⟨d, hread, h⟩ := exists_of_bind_eq_ok h
    cases h
    exact { ho with poll := ⟨value, readDuration_eq_ok_iff.1 hread⟩ }
  case writeTimeout =>
    obtain ⟨d, hread, h⟩ := exists_of_bind_eq_ok h
    cases h
    exact { ho with write := ⟨value, readDuration_eq_ok_iff.1 hread⟩ }
  case inboundPath | outboundPath | clock | line | logFormat | logLevel =>
    obtain ⟨_, -, h⟩ := exists_of_bind_eq_ok h
    cases h
    exact { ho with }
  case device | debounce | foreground =>
    cases h
    exact { ho with }
  case help | version => cases h

theorem isTimed_default : Options.IsTimed {} :=
  ⟨⟨"1s", rfl⟩, ⟨"100ms", rfl⟩, ⟨"1s", rfl⟩⟩

theorem isTimed_of_parse (h : parse args environment = .ok o) : o.IsTimed :=
  kept_of_parse kept_isTimed h isTimed_default

end SpiBridge.CommandLine
