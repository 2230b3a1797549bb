import SpiBridge.Command.Frame
/-!
# Valid command frames

A frame is valid when its length field is in bounds and its payload is as long as
its header announces.  Main statements: reading a byte string gives a frame
exactly if the frame is valid and the byte string is its written form, and the
header that a byte string starts with does not change as the string grows.
-/

namespace SpiBridge.Command

namespace Header

variable {bytes more : Bytes} {h : Header}

theorem size_le_frameLength (h : Header) : size ≤ h.frameLength :=
  Nat.le_add_right _ _

theorem followingLength_of_isWrite (hwrite : h.command.isWrite = true) :
    h.followingLength = h.payloadLength.toNat := by
  simp [followingLength, hwrite]

theorem followingLength_of_not_isWrite (hread : h.command.isWrite = false) :
    h.followingLength = 0 := by
  simp [followingLength, hread]

theorem parse_eq_ok_iff :
    parse bytes = .ok h ↔
      h.payloadLength.toNat ≤ maxPayload ∧ bytes = h.toBytes ++ bytes.drop size := by
  constructor
  · intro hparse
    unfold parse at hparse
    split at hparse
    · rename_i code register low high rest
      split at hparse
      · simp at hparse
      · rename_i command hcode
        split at hparse <;> simp only [Except.ok.injEq, reduceCtorEq] at hparse
        rename_i hlength
        subst hparse
        exact ⟨hlength, by
          simp [toBytes, Bytes.ofWord_toWord, code_of_ofCode? hcode, size]⟩
    · simp at hparse
  · rintro ⟨hlength, hbytes⟩
    rw [hbytes]
    exact parse_toBytes_append h _ hlength

theorem size_le_of_parse (hparse : parse bytes = .ok h) : size ≤ bytes.length := by
  have hbytes := congrArg List.length (parse_eq_ok_iff.1 hparse).2
  rw [List.length_append, length_toBytes] at hbytes
  omega

theorem payloadLength_le_of_parse (hparse : parse bytes = .ok h) :
    h.payloadLength.toNat ≤ maxPayload :=
  (parse_eq_ok_iff.1 hparse).1

theorem parse_append_of_size (hsize : size ≤ bytes.length) (more : Bytes) :
    parse (bytes ++ more) = parse bytes := by
  match bytes, hsize with
  | _ :: _ :: _ :: _ :: _, _ => rfl

theorem parse_append (hparse : parse bytes = .ok h) (more : Bytes) :
    parse (bytes ++ more) = .ok h := by
  rw [parse_append_of_size (size_le_of_parse hparse), hparse]

theorem frameLength_le_of_parse (hparse : parse bytes = .ok h) :
    h.frameLength ≤ maxFrame := by
  have hlength := payloadLength_le_of_parse hparse
  unfold frameLength followingLength maxFrame
  split <;> omega

end Header

namespace Frame

variable {raw : Bytes} {f : Frame}

/-- A frame whose length field is in bounds and tells the length of its payload. -/
structure Valid (f : Frame) : Prop where
  bound : f.header.payloadLength.toNat ≤ Header.maxPayload
  payload : f.payload.length = f.header.followingLength

instance : Decidable f.Valid :=
  decidable_of_iff (f.header.payloadLength.toNat ≤ Header.maxPayload ∧
    f.payload.length = f.header.followingLength)
    ⟨fun h => ⟨h.1, h.2⟩, fun h => ⟨h.bound, h.payload⟩⟩

theorem length_toBytes_of_valid (hf : f.Valid) : f.toBytes.length = f.header.frameLength := by
  rw [toBytes, List.length_append, Header.length_toBytes, hf.payload, Header.frameLength]

theorem parse_header_toBytes (hf : f.Valid) (rest : Bytes) :
    Header.parse (f.toBytes ++ rest) = .ok f.header := by
  rw [toBytes, List.append_assoc]
  exact Header.parse_toBytes_append _ _ hf.bound

theorem header_of_toBytes (hf : f.Valid) : Header.parse f.toBytes = .ok f.header := by
  have hparse := parse_header_toBytes hf []
  rwa [List.append_nil] at hparse

theorem payload_eq_nil (hf : f.Valid) (h : f.header.followingLength = 0) : f.payload = [] := by
  rw [← List.length_eq_zero_iff, hf.payload, h]

theorem parse_header (hf : f.Valid) : Header.parse f.header.toBytes = .ok f.header := by
  have hsize : Header.size ≤ f.header.toBytes.length := Nat.le_refl _
  rw [← Header.parse_append_of_size hsize f.payload]
  exact header_of_toBytes hf

theorem parse_of_length {h : Header} (hparse : Header.parse raw = .ok h)
    (hlength : raw.length = h.frameLength) : parse raw = .ok ⟨h, raw.drop Header.size⟩ := by
  simp [parse, hparse, bind, Except.bind, hlength]

theorem parse_eq_ok_iff : parse raw = .ok f ↔ f.Valid ∧ f.toBytes = raw := by
  constructor
  · intro hparse
    unfold parse at hparse
    rcases hheader : Header.parse raw with e | h
    · simp [hheader, bind, Except.bind] at hparse
    simp only [hheader, bind, Except.bind] at hparse
    split at hparse
    · simp at hparse
    split at hparse <;> simp only [Except.ok.injEq, reduceCtorEq] at hparse
    rename_i hshort hlong
    subst hparse
    obtain ⟨hbound, hraw⟩ := Header.parse_eq_ok_iff.1 hheader
    refine ⟨⟨hbound, ?_⟩, hraw.symm⟩
    have hlength : raw.length = Header.size + h.followingLength := by
      unfold Header.frameLength at hshort hlong
      omega
    show (raw.drop Header.size).length = h.followingLength
    rw [List.length_drop]
    omega
  · rintro ⟨hf, rfl⟩
    rw [parse_of_length (header_of_toBytes hf) (length_toBytes_of_valid hf)]
    have hsize : Header.size = f.header.toBytes.length := rfl
    rw [toBytes, hsize, List.drop_left]

theorem header_of_parse (hparse : parse raw = .ok f) :
    Header.parse raw = .ok f.header ∧ raw.length = f.header.frameLength := by
  obtain ⟨hf, rfl⟩ := parse_eq_ok_iff.1 hparse
  exact ⟨header_of_toBytes hf, length_toBytes_of_valid hf⟩

theorem length_le_of_parse (hparse : parse raw = .ok f) : raw.length ≤ Header.maxFrame := by
  obtain ⟨hf, rfl⟩ := parse_eq_ok_iff.1 hparse
  rw [length_toBytes_of_valid hf]
  exact Header.frameLength_le_of_parse (header_of_toBytes hf)

/-! ## Streams of frames -/

theorem size_le_length_toBytes (f : Frame) : Header.size ≤ f.toBytes.length := by
  rw [toBytes, List.length_append, Header.length_toBytes]
  omega

variable {frames : List Frame}

theorem header_of_front {more tail : Bytes} (hf : f.Valid) (h : raw ++ tail = f.toBytes ++ more)
    (hsize : Header.size ≤ raw.length) : Header.parse raw = .ok f.header := by
  have hparse := parse_header_toBytes hf more
  rwa [← h, Header.parse_append_of_size hsize] at hparse

theorem eq_toBytes_of_front {g : Frame} {more tail : Bytes} (hf : f.Valid)
    (h : raw ++ tail = f.toBytes ++ more) (hparse : parse raw = .ok g) :
    raw = f.toBytes ∧ tail = more := by
  obtain ⟨hheader, hlength⟩ := header_of_parse hparse
  have hsame := header_of_front hf h (Header.size_le_of_parse hheader)
  rw [hheader] at hsame
  rw [Except.ok.inj hsame, ← length_toBytes_of_valid hf] at hlength
  exact List.append_inj h hlength

theorem header_of_stream (hvalid : ∀ f ∈ frames, f.Valid)
    (hpre : raw <+: frames.flatMap toBytes) (hsize : Header.size ≤ raw.length) :
    ∃ f rest, frames = f :: rest ∧ Header.parse raw = .ok f.header := by
  cases frames with
  | nil =>
    rw [List.flatMap_nil, List.prefix_nil] at hpre
    subst hpre
    exact absurd hsize (by decide)
  | cons f rest =>
    obtain ⟨tail, htail⟩ := hpre
    rw [List.flatMap_cons] at htail
    exact ⟨f, rest, rfl, header_of_front (hvalid f (by simp)) htail hsize⟩

theorem eq_cons_of_stream (hvalid : ∀ f ∈ frames, f.Valid)
    (hpre : raw <+: frames.flatMap toBytes) (hparse : parse raw = .ok f) :
    ∃ rest, frames = f :: rest := by
  obtain ⟨hf, rfl⟩ := parse_eq_ok_iff.1 hparse
  obtain ⟨g, rest, rfl, hheader⟩ :=
    header_of_stream hvalid hpre (size_le_length_toBytes f)
  have hg := hvalid g (by simp)
  have hsame := hheader.symm.trans (header_of_toBytes hf)
  have hlength : f.toBytes.length = g.toBytes.length := by
    rw [length_toBytes_of_valid hf, length_toBytes_of_valid hg, Except.ok.inj hsame]
  have hbytes : f.toBytes = g.toBytes := by
    rw [List.flatMap_cons] at hpre
    exact (List.prefix_of_prefix_length_le hpre (List.prefix_append _ _)
      (Nat.le_of_eq hlength)).eq_of_length hlength
  have hparse' := parse_eq_ok_iff.2 ⟨hg, hbytes.symm⟩
  rw [hparse] at hparse'
  exact ⟨rest, by rw [Except.ok.inj hparse']⟩

theorem flatMap_toBytes_eq_nil_iff : frames.flatMap toBytes = [] ↔ frames = [] := by
  constructor
  · intro h
    cases frames with
    | nil => rfl
    | cons f rest =>
      rw [List.flatMap_cons] at h
      have hsize := size_le_length_toBytes f
      rw [(List.append_eq_nil_iff.1 h).1] at hsize
      exact absurd hsize (by decide)
  · rintro rfl
    rfl

end Frame

end SpiBridge.Command
