import SpiBridge.Log.Syslog
/-!
# What the system log is given of a record

A record is written in pieces, and submitted as messages when it is complete.  Which messages
these are depends on the bytes alone, not on how they were cut.  Main statement: the messages hold
all bytes of the record in their order, but for line feeds, NULs and the one carriage return at the
end of each line, and there is one for each line that is not empty.  A line of NULs counts among
those, and so its message is empty.
-/

namespace SpiBridge.Log.Syslog

/-- A record that is being written. -/
structure Draft where
  priority : Nat
  written : Bytes := []
  deriving DecidableEq

namespace Draft

def blank (level : Option Level) : Draft :=
  { priority := priorityOf level }

def write (d : Draft) (piece : Bytes) : Nat × Draft :=
  (piece.length, { d with written := d.written ++ piece })

def writeAll (d : Draft) (pieces : List Bytes) : Draft :=
  pieces.foldl (fun d piece => (d.write piece).2) d

def close (d : Draft) : List (Nat × Bytes) :=
  (messages d.written).map (d.priority, ·)

theorem writeAll_eq (d : Draft) (pieces : List Bytes) :
    d.writeAll pieces = { d with written := d.written ++ pieces.flatten } := by
  induction pieces generalizing d with
  | nil => simp [writeAll]
  | cons piece pieces ih =>
    calc d.writeAll (piece :: pieces)
        = (d.write piece).2.writeAll pieces := rfl
      _ = { d with written := (d.written ++ piece) ++ pieces.flatten } := ih _
      _ = _ := by rw [List.append_assoc, List.flatten_cons]

theorem close_writeAll (level : Option Level) (pieces : List Bytes) :
    ((blank level).writeAll pieces).close = submit level pieces := by
  rw [writeAll_eq]
  rfl

end Draft

/-- Nothing is kept of line feeds and NULs, nor of a carriage return that stands in front of a line
feed or at the end. -/
def IsDropped (byte : UInt8) (rest : Bytes) : Prop :=
  byte = lineFeed ∨ byte = 0 ∨
    byte = carriageReturn ∧ (rest = [] ∨ rest.head? = some lineFeed)

instance (byte : UInt8) (rest : Bytes) : Decidable (IsDropped byte rest) :=
  inferInstanceAs (Decidable (_ ∨ _ ∨ _))

def kept : Bytes → Bytes
  | [] => []
  | byte :: rest => if IsDropped byte rest then kept rest else byte :: kept rest

/-- A line that is not empty, and of which nothing is kept. -/
def IsVoid (line : Bytes) : Prop :=
  stripReturn line ≠ [] ∧ ∀ byte ∈ stripReturn line, byte = 0

def cleaned (line : Bytes) : Bytes :=
  (stripReturn line).filter (· ≠ 0)

variable {byte : UInt8} {line rest record : Bytes} {lines : List Bytes}

/-! ## Lines -/

theorem splitLines_feed (rest : Bytes) :
    splitLines (lineFeed :: rest) = [] :: splitLines rest := by
  rw [splitLines, if_pos rfl]

theorem splitLines_cons (hbyte : byte ≠ lineFeed) (h : splitLines rest = line :: lines) :
    splitLines (byte :: rest) = (byte :: line) :: lines := by
  rw [splitLines, if_neg hbyte, h]

theorem exists_splitLines_eq_cons (text : Bytes) : ∃ line lines, splitLines text = line :: lines :=
  List.exists_cons_of_ne_nil (splitLines_ne_nil text)

theorem eq_nil_iff_of_splitLines (h : splitLines rest = line :: lines) :
    line = [] ↔ rest = [] ∨ rest.head? = some lineFeed := by
  cases rest with
  | nil =>
    obtain ⟨rfl, -⟩ := List.cons.inj h
    simp
  | cons next rest =>
    by_cases hnext : next = lineFeed
    · subst hnext
      rw [splitLines_feed] at h
      obtain ⟨rfl, -⟩ := List.cons.inj h
      simp
    · obtain ⟨line', lines', hrest⟩ := exists_splitLines_eq_cons rest
      rw [splitLines_cons hnext hrest] at h
      obtain ⟨rfl, -⟩ := List.cons.inj h
      simp [hnext]

theorem lineFeed_notMem_of_mem (h : line ∈ splitLines record) : lineFeed ∉ line := by
  induction record generalizing line with
  | nil =>
    obtain rfl := List.mem_singleton.1 h
    simp
  | cons byte rest ih =>
    by_cases hbyte : byte = lineFeed
    · subst hbyte
      rw [splitLines_feed] at h
      rcases List.mem_cons.1 h with rfl | h
      · simp
      · exact ih h
    · obtain ⟨first, more, hrest⟩ := exists_splitLines_eq_cons rest
      rw [splitLines_cons hbyte hrest] at h
      rcases List.mem_cons.1 h with rfl | h
      · have hfirst : lineFeed ∉ first := ih (by simp [hrest])
        simp [hfirst, Ne.symm hbyte]
      · exact ih (by simp [hrest, h])

/-! ## The end of a line -/

theorem stripReturn_sublist (line : Bytes) : (stripReturn line).Sublist line := by
  unfold stripReturn
  split
  · exact List.dropLast_sublist line
  · exact List.Sublist.refl line

theorem stripReturn_cons (h : byte = carriageReturn → line ≠ []) :
    stripReturn (byte :: line) = byte :: stripReturn line := by
  cases line with
  | nil =>
    have hbyte : byte ≠ carriageReturn := fun hreturn => h hreturn rfl
    simp [stripReturn, hbyte]
  | cons next line =>
    unfold stripReturn
    rw [List.getLast?_cons_cons, List.dropLast_cons_cons]
    split <;> rfl

/-! ## Messages -/

theorem messages_eq (record : Bytes) :
    messages record = ((splitLines record).filter (stripReturn · ≠ [])).map cleaned := by
  unfold messages
  rw [List.filter_map, List.map_map]
  rfl

theorem mem_messages_iff {message : Bytes} :
    message ∈ messages record ↔
      ∃ line ∈ splitLines record, stripReturn line ≠ [] ∧ cleaned line = message := by
  simp [messages_eq, and_assoc]

theorem flatten_messages (record : Bytes) :
    (messages record).flatten = (splitLines record).flatMap cleaned := by
  rw [messages_eq]
  induction splitLines record with
  | nil => rfl
  | cons line lines ih =>
    rw [List.flatMap_cons, ← ih]
    by_cases hline : stripReturn line = []
    · simp [cleaned, hline]
    · simp [hline]

theorem cleaned_cons (h : byte = carriageReturn → line ≠ []) :
    cleaned (byte :: line) = if byte = 0 then cleaned line else byte :: cleaned line := by
  rw [cleaned, stripReturn_cons h]
  by_cases hbyte : byte = 0 <;> simp [cleaned, hbyte]

theorem flatMap_cleaned (record : Bytes) :
    (splitLines record).flatMap cleaned = kept record := by
  -- A first byte is at the end of its line if and only if the first line behind it is empty.
  induction record with
  | nil => rfl
  | cons byte rest ih =>
    by_cases hfeed : byte = lineFeed
    · subst hfeed
      rw [splitLines_feed, List.flatMap_cons, ih, kept, if_pos (.inl rfl)]
      rfl
    obtain ⟨line, lines, hrest⟩ := exists_splitLines_eq_cons rest
    have hempty := eq_nil_iff_of_splitLines hrest
    rw [hrest, List.flatMap_cons] at ih
    rw [splitLines_cons hfeed hrest, List.flatMap_cons, kept]
    by_cases hend : byte = carriageReturn ∧ line = []
    · obtain ⟨rfl, rfl⟩ := hend
      rw [if_pos (.inr (.inr ⟨rfl, hempty.1 rfl⟩)), ← ih]
      rfl
    · have hinside : byte = carriageReturn → line ≠ [] := fun hreturn hline =>
        hend ⟨hreturn, hline⟩
      have hdropped : IsDropped byte rest ↔ byte = 0 := by
        rw [IsDropped, ← hempty]
        constructor
        · rintro (h | h | h)
          · exact absurd h hfeed
          · exact h
          · exact absurd h hend
        · exact fun h => .inr (.inl h)
      rw [cleaned_cons hinside]
      by_cases hnul : byte = 0
      · rw [if_pos hnul, if_pos (hdropped.2 hnul), ih]
      · rw [if_neg hnul, if_neg (mt hdropped.1 hnul), List.cons_append, ih]

theorem mem_of_mem_cleaned (h : byte ∈ cleaned line) : byte ∈ line ∧ byte ≠ 0 := by
  obtain ⟨hline, hbyte⟩ := List.mem_filter.1 h
  exact ⟨(stripReturn_sublist line).mem hline, of_decide_eq_true hbyte⟩

theorem cleaned_eq_nil_iff : cleaned line = [] ↔ ∀ byte ∈ stripReturn line, byte = 0 := by
  simp [cleaned]

theorem length_messages (record : Bytes) :
    (messages record).length = (splitLines record).countP (stripReturn · ≠ []) := by
  rw [messages_eq, List.length_map, List.countP_eq_length_filter]

/-- A record that is written in pieces is submitted as it would be in one piece: as messages of its
priority, without line feeds and NULs, that hold together what is kept of the record.  It consists
of lines with a line feed between each two, and there is one message for each line that is not
empty.  So an empty message is submitted if and only if some line consists of NULs. -/
theorem submits_of_pieces (level : Option Level) (pieces : List Bytes) :
    ((Draft.blank level).writeAll pieces).close = submit level [pieces.flatten] ∧
      (∀ m ∈ submit level pieces, m.1 = priorityOf level ∧ lineFeed ∉ m.2 ∧ 0 ∉ m.2) ∧
      ((submit level pieces).map (·.2)).flatten = kept pieces.flatten ∧
      ∃ lines, pieces.flatten = [lineFeed].intercalate lines ∧
        (∀ line ∈ lines, lineFeed ∉ line) ∧
        (submit level pieces).length = lines.countP (stripReturn · ≠ []) ∧
        ((∃ m ∈ submit level pieces, m.2 = []) ↔ ∃ line ∈ lines, IsVoid line) := by
  have htexts : (submit level pieces).map (·.2) = messages pieces.flatten := by
    simp [submit, Function.comp_def]
  refine ⟨?_, ?_, ?_, splitLines pieces.flatten, (intercalate_splitLines _).symm,
    fun _ => lineFeed_notMem_of_mem, ?_, ?_⟩
  · rw [Draft.close_writeAll]
    simp [submit]
  · intro m hm
    obtain ⟨message, hmessage, rfl⟩ := List.mem_map.1 hm
    obtain ⟨line, hline, -, rfl⟩ := mem_messages_iff.1 hmessage
    refine ⟨rfl, fun hfeed => ?_, fun hnul => (mem_of_mem_cleaned hnul).2 rfl⟩
    exact lineFeed_notMem_of_mem hline (mem_of_mem_cleaned hfeed).1
  · rw [htexts, flatten_messages, flatMap_cleaned]
  · rw [submit, List.length_map, length_messages]
  · have hmem : (∃ m ∈ submit level pieces, m.2 = []) ↔ [] ∈ messages pieces.flatten := by
      rw [← htexts, List.mem_map]
    rw [hmem, mem_messages_iff]
    simp only [cleaned_eq_nil_iff, IsVoid]

/-- Pieces between which a line end is cut; a carriage return stands within a line, and the last
line is a line of NULs. -/
def cutRecord : List Bytes :=
  [[0x61, carriageReturn], [lineFeed, 0x62, 0, carriageReturn],
    [0x63, carriageReturn, carriageReturn, lineFeed, 0, carriageReturn]]

theorem submits_of_pieces_of_cutRecord :
    (4, []) ∈ submit (some .warn) cutRecord ∧
      ((submit (some .warn) cutRecord).map (·.2)).flatten =
        [0x61, 0x62, carriageReturn, 0x63, carriageReturn] ∧
      ∃ lines, cutRecord.flatten = [lineFeed].intercalate lines ∧ ∃ line ∈ lines, IsVoid line := by
  have hempty : (4, []) ∈ submit (some .warn) cutRecord := by decide
  obtain ⟨-, -, hkept, lines, hlines, -, -, hvoid⟩ :=
    submits_of_pieces (some .warn) cutRecord
  exact ⟨hempty, hkept.trans (by decide), lines, hlines, hvoid.1 ⟨_, hempty, rfl⟩⟩

/-- A record of a single NUL is submitted as an empty message. -/
theorem not_filled_of_nul : ¬ ∀ m ∈ submit none [[0]], m.2 ≠ [] := by
  decide

end SpiBridge.Log.Syslog
