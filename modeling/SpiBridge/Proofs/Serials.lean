import SpiBridge.Proofs.Sync
/-!
# Giving out serial numbers

Numbers are drawn for either side in any order, by themselves or for the header of a frame.
A header whose raw length does not go into its length field is refused and draws none.

Main statement: the numbers of one side are those of its range in order, round and round,
whatever is drawn for the other side and whatever is refused in between.
-/

namespace SpiBridge.Sync

/-- A call that draws a number for a side, by itself or for a frame of so many raw bytes. -/
inductive Draw
  | number (origin : Origin)
  | header (origin : Origin) (rawLength : Nat)
  deriving DecidableEq, Repr

namespace Draw

def origin : Draw → Origin
  | number origin | header origin _ => origin

def takes : Draw → Bool
  | number _ => true
  | header _ rawLength => rawLength ≤ 65535

def takesFor (origin : Origin) (d : Draw) : Bool :=
  d.takes && d.origin == origin

def run (s : Serials) : Draw → Except FramingError UInt16 × Serials
  | number origin => (.ok (s.next origin).1, (s.next origin).2)
  | header origin rawLength =>
    match Header.next s origin rawLength with
    | .ok (h, s) => (.ok h.serial, s)
    | .error e => (.error e, s)

/-- The numbers that come out of draws for one side, in order. -/
def numbers (origin : Origin) (s : Serials) : List Draw → List UInt16
  | [] => []
  | d :: rest =>
    (if d.origin = origin then (d.run s).1.toOption.toList else []) ++
      numbers origin (d.run s).2 rest

variable {s : Serials} {d : Draw} {side : Origin} {rawLength : Nat}

theorem run_of_takes (h : d.takes = true) :
    d.run s = (.ok (s.peek d.origin), s.advance d.origin) := by
  cases d with
  | number side => rfl
  | header side rawLength =>
    have hlength : rawLength < 65536 := Nat.lt_succ_of_le (of_decide_eq_true h)
    simp only [run, Header.next, if_pos hlength]
    rfl

theorem exists_run_of_not_takes (h : d.takes = false) : ∃ e, d.run s = (.error e, s) := by
  cases d with
  | number side => cases h
  | header side rawLength =>
    have hlength : ¬ rawLength < 65536 := by
      have hlong : ¬ rawLength ≤ 65535 := of_decide_eq_false h
      omega
    exact ⟨_, by simp only [run, Header.next, if_neg hlength]; rfl⟩

/-- From where a side has got to, its numbers follow each other: the others' draws and the
refusals leave its next number as it is. -/
theorem numbers_eq (draws : List Draw) {earlier : Nat}
    (h : s.peek side = side.serialAt earlier) :
    numbers side s draws =
      (List.range' earlier (draws.countP (takesFor side))).map side.serialAt := by
  induction draws generalizing s earlier with
  | nil => rfl
  | cons d rest ih =>
    by_cases htakes : d.takes = true
    · by_cases hside : d.origin = side
      · have hfor : takesFor side d = true := by simp [takesFor, htakes, hside]
        have hnext : (s.advance side).peek side = side.serialAt (earlier + 1) := by
          rw [Serials.peek_advance_self, h, Serials.successor_serialAt]
        rw [numbers, run_of_takes htakes, if_pos hside, hside, ih hnext,
          List.countP_cons_of_pos hfor, List.range'_succ, List.map_cons, h]
        rfl
      · have hfor : ¬ takesFor side d = true := by simp [takesFor, hside]
        have hnext : (s.advance d.origin).peek side = side.serialAt earlier := by
          rw [Serials.peek_advance_of_ne s (Ne.symm hside), h]
        rw [numbers, run_of_takes htakes, if_neg hside, ih hnext,
          List.countP_cons_of_neg hfor, List.nil_append]
    · have hrefused := Bool.eq_false_iff.2 htakes
      have hfor : ¬ takesFor side d = true := by simp [takesFor, hrefused]
      obtain ⟨e, hrun⟩ := exists_run_of_not_takes (s := s) hrefused
      have hnone : (if d.origin = side then (d.run s).1.toOption.toList else []) = [] := by
        rw [hrun]
        exact ite_self _
      rw [numbers, hnone, hrun, ih h, List.countP_cons_of_neg hfor, List.nil_append]

theorem numbers_start (side : Origin) (draws : List Draw) :
    numbers side {} draws =
      (List.range (draws.countP (takesFor side))).map side.serialAt := by
  rw [List.range_eq_range']
  apply numbers_eq
  cases side <;> rfl

end Draw

namespace Origin

variable {origin : Origin}

theorem serialAt_ne {i j : Nat} (hless : i < j) (hround : j < i + serialCount) :
    origin.serialAt i ≠ origin.serialAt j := by
  intro hsame
  have hmod := congrArg UInt16.toNat hsame
  rw [toNat_serialAt, toNat_serialAt] at hmod
  unfold serialCount at *
  omega

theorem ne_invalid_of_owns {serial : UInt16} (h : origin.Owns serial) :
    serial ≠ slave.invalidSerial ∧ serial ≠ master.invalidSerial := by
  have hside := ofSerial?_eq_some_iff.2 h
  constructor
  · rintro rfl
    cases hside
  · rintro rfl
    cases hside

theorem toNat_add_one_of_lt {serial : UInt16} (h : serial < origin.lastSerial) :
    (serial + 1).toNat = serial.toNat + 1 := by
  have hlast := origin.lastSerial.toNat_lt
  rw [UInt16.lt_iff_toNat_lt] at h
  rw [UInt16.toNat_add]
  simp only [UInt16.reduceToNat]
  omega

end Origin

namespace Header

variable {s : Serials} {origin : Origin} {rawLength : Nat}

theorem next_of_le (h : rawLength ≤ 65535) :
    ∃ header, next s origin rawLength = .ok (header, (s.next origin).2) ∧
      header.serial = (s.next origin).1 ∧ header.length.toNat = rawLength := by
  refine ⟨_, if_pos (Nat.lt_succ_of_le h), rfl, ?_⟩
  rw [UInt16.toNat_ofNat']
  omega

end Header

namespace Draw

variable (side : Origin) (draws : List Draw)

theorem toNat_numbers_start :
    (numbers side {} draws).map UInt16.toNat =
      (List.range (draws.countP (takesFor side))).map fun earlier =>
        side.firstSerial.toNat + earlier % 0x7fff := by
  rw [numbers_start, List.map_map]
  apply List.map_congr_left
  intro earlier _
  exact Origin.toNat_serialAt side earlier

theorem owns_of_mem_numbers {serial : UInt16} (h : serial ∈ numbers side {} draws) :
    side.Owns serial := by
  rw [numbers_start] at h
  obtain ⟨earlier, -, rfl⟩ := List.mem_map.1 h
  exact Origin.owns_serialAt side earlier

theorem nodup_round_numbers (k : Nat) : (((numbers side {} draws).drop k).take 0x7fff).Nodup := by
  rw [numbers_start, List.Nodup, List.pairwise_iff_getElem]
  intro i j hi hj hless
  simp only [List.getElem_take, List.getElem_drop, List.getElem_map, List.getElem_range]
  rw [List.length_take] at hj
  apply Origin.serialAt_ne
  · omega
  · unfold Origin.serialCount
    omega

theorem run_header_of_lt {s : Serials} {rawLength : Nat} (h : 65535 < rawLength) :
    (header side rawLength).run s = (.error (.payloadTooLarge rawLength 65535), s) := by
  simp only [run, Header.next, if_neg (Nat.not_lt.2 h)]

/-- However the draws for the two sides are mixed, a side is given the numbers of its range in
order, from the first one on and round and round.  So each of them tells its side, none is one of
the two that stand for no frame, none is found by a step beyond a word, and none comes again
before the round is over.  A header takes exactly one of them, and none if it is refused. -/
theorem numbers_of_draws :
    ((numbers side {} draws).map UInt16.toNat =
      (List.range (draws.countP (takesFor side))).map fun earlier =>
        side.firstSerial.toNat + earlier % 0x7fff) ∧
      (∀ serial ∈ numbers side {} draws, side.Owns serial ∧
        Origin.ofSerial? serial = some side ∧ serial ≠ 0x0000 ∧ serial ≠ 0x8000 ∧
        (serial < side.lastSerial → (serial + 1).toNat = serial.toNat + 1)) ∧
      (∀ k, (((numbers side {} draws).drop k).take 0x7fff).Nodup) ∧
      ∀ s rawLength,
        (rawLength ≤ 65535 → ∃ header, Header.next s side rawLength =
            .ok (header, (s.next side).2) ∧
          header.serial = (s.next side).1 ∧ header.length.toNat = rawLength) ∧
        (65535 < rawLength → (header side rawLength).run s =
          (.error (.payloadTooLarge rawLength 65535), s)) := by
  refine ⟨toNat_numbers_start side draws, ?_, nodup_round_numbers side draws,
    fun s rawLength => ⟨Header.next_of_le, run_header_of_lt side⟩⟩
  intro serial hserial
  have howns := owns_of_mem_numbers side draws hserial
  obtain ⟨hslave, hmaster⟩ := Origin.ne_invalid_of_owns howns
  exact ⟨howns, Origin.ofSerial?_eq_some_iff.2 howns, hslave, hmaster,
    Origin.toNat_add_one_of_lt⟩

/-- The number behind the last word is the first of the side again, and a header refused in between
took none. -/
theorem numbers_of_draws_of_round :
    (numbers .master {} (List.replicate 0x7fff (number .master) ++
        [header .master 65536, number .slave, header .master 65535]))[0x7fff]?.map
          UInt16.toNat = some 0x8001 ∧
      0x8001 ∈ numbers .master {} [header .master 65536, number .slave, number .master] ∧
      Origin.ofSerial? 0x8001 = some .master ∧
      (header .master 65536).run {} = (.error (.payloadTooLarge 65536 65535), {}) := by
  have hmember : 0x8001 ∈ numbers .master {}
      [header .master 65536, number .slave, number .master] := by decide
  refine ⟨?_, hmember, ?_, ?_⟩
  · have hcount : (List.replicate 0x7fff (number .master) ++ [header .master 65536,
        number .slave, header .master 65535]).countP (takesFor .master) = 0x7fff + 1 := by
      rw [List.countP_append, List.countP_replicate]
      rfl
    rw [← List.getElem?_map, (numbers_of_draws .master _).1, hcount, List.getElem?_map,
      List.getElem?_range (Nat.lt_succ_self 0x7fff)]
    rfl
  · exact ((numbers_of_draws .master _).2.1 _ hmember).2.1
  · exact ((numbers_of_draws .master []).2.2.2 {} 65536).2 (by decide)

end Draw

end SpiBridge.Sync
