import SpiBridge.Proofs.Frame
/-!
# Which byte strings are command frames

A frame is built from its parts: a write from its payload, a read from the length of the
answer.  A byte string that is no frame is refused for the first of five reasons: too few
bytes for a header, an unknown command, a length out of bounds, too few bytes for the frame,
too many.

Main statement: reading accepts exactly the written forms of what can be built and takes each
back to what it was built from, and each refusal says which of the five is the matter.
-/

namespace SpiBridge.Command

theorem ofCode?_eq_none_iff {code : UInt8} : ofCode? code = none ↔ 3 < code := by
  rw [UInt8.lt_iff_toNat_lt]
  unfold ofCode?
  simp only [← UInt8.toNat_inj, UInt8.reduceToNat]
  grind

namespace Header

variable {command : Command} {register : UInt8} {length : Nat} {raw rest : Bytes} {h : Header}
  {e : FramingError}

theorem ofLength_of_le (hlength : length ≤ maxPayload) :
    ofLength command register length = .ok ⟨command, register, UInt16.ofNat length⟩ :=
  if_pos hlength

theorem ofLength_of_lt (hlength : maxPayload < length) :
    ofLength command register length = .error (.payloadTooLarge length maxPayload) :=
  if_neg (Nat.not_le.2 hlength)

theorem le_of_ofLength (hbuilt : ofLength command register length = .ok h) :
    length ≤ maxPayload := by
  unfold ofLength at hbuilt
  split at hbuilt
  · assumption
  · cases hbuilt

theorem toNat_length (hlength : length ≤ maxPayload) : (UInt16.ofNat length).toNat = length := by
  rw [UInt16.toNat_ofNat']
  unfold maxPayload at hlength
  omega

theorem parse_build (hlength : length ≤ maxPayload) (rest : Bytes) :
    ∃ bytes, build command register length = .ok bytes ∧ bytes.length = size ∧
      parse (bytes ++ rest) = .ok ⟨command, register, UInt16.ofNat length⟩ := by
  refine ⟨toBytes ⟨command, register, UInt16.ofNat length⟩, ?_, length_toBytes _, ?_⟩
  · rw [build, ofLength_of_le hlength]
    rfl
  · apply parse_toBytes_append
    rw [toNat_length hlength]
    exact hlength

theorem build_of_lt (hlength : maxPayload < length) :
    build command register length = .error (.payloadTooLarge length maxPayload) := by
  rw [build, ofLength_of_lt hlength]
  rfl

theorem build_parts (hlength : h.payloadLength.toNat ≤ maxPayload) :
    build h.command h.register h.payloadLength.toNat = .ok h.toBytes := by
  rw [build, ofLength_of_le hlength, UInt16.ofNat_toNat]
  rfl

/-- Why a byte string does not begin with a header: the report, and what it stands for. -/
inductive Refused : Bytes → FramingError → Prop
  | short {raw : Bytes} (hsize : raw.length < size) : Refused raw (.truncated size raw.length)
  | unknown {code : UInt8} {rest : Bytes} (hsize : size ≤ (code :: rest).length)
      (hcode : 3 < code) : Refused (code :: rest) (.unknownCommand code)
  | outOfBounds {code low high : UInt8} (register : UInt8) (rest : Bytes) (hcode : code ≤ 3)
      (hlength : maxPayload < low.toNat + 256 * high.toNat) :
      Refused (code :: register :: low :: high :: rest)
        (.payloadTooLarge (low.toNat + 256 * high.toNat) maxPayload)

theorem parse_of_refused (hrefused : Refused raw e) : parse raw = .error e := by
  cases hrefused with
  | short hsize =>
    unfold parse
    split
    · simp only [List.length_cons, size] at hsize
      omega
    · rfl
  | @unknown code rest hsize hcode =>
    rcases rest with _ | ⟨register, _ | ⟨low, _ | ⟨high, rest⟩⟩⟩
    case cons.cons.cons => simp only [parse, ofCode?_eq_none_iff.2 hcode]
    all_goals simp [size] at hsize
  | @outOfBounds code low high register rest hcode hlength =>
    obtain ⟨command, hcommand⟩ : ∃ command, ofCode? code = some command := by
      rw [← Option.ne_none_iff_exists', ne_eq, ofCode?_eq_none_iff]
      exact UInt8.not_lt.2 hcode
    rw [← Bytes.toNat_toWord] at hlength ⊢
    simp only [parse, hcommand, if_neg (Nat.not_le.2 hlength)]

theorem header_or_refused (raw : Bytes) :
    (∃ (h : Header) (body : Bytes), h.payloadLength.toNat ≤ maxPayload ∧
      raw = h.toBytes ++ body) ∨ ∃ e, Refused raw e := by
  rcases raw with _ | ⟨code, _ | ⟨register, _ | ⟨low, _ | ⟨high, body⟩⟩⟩⟩
  case cons.cons.cons.cons =>
    rcases hcommand : ofCode? code with _ | command
    · exact .inr ⟨_, .unknown (by simp [size]) (ofCode?_eq_none_iff.1 hcommand)⟩
    by_cases hlength : low.toNat + 256 * high.toNat ≤ maxPayload
    · refine .inl ⟨⟨command, register, Bytes.toWord low high⟩, body, ?_, ?_⟩
      · rw [Bytes.toNat_toWord]
        exact hlength
      · rw [toBytes, code_of_ofCode? hcommand, Bytes.ofWord_toWord]
        rfl
    · have hcode : code ≤ 3 := by
        rw [← UInt8.not_lt, ← ofCode?_eq_none_iff, hcommand]
        exact Option.some_ne_none command
      exact .inr ⟨_, .outOfBounds register body hcode (Nat.not_le.1 hlength)⟩
  all_goals exact .inr ⟨_, .short (by simp [size])⟩

theorem parse_eq_error_iff : parse raw = .error e ↔ Refused raw e := by
  apply FramingError.eq_error_iff_of_reasons fun _ => parse_of_refused
  obtain ⟨h, body, hbound, rfl⟩ | hrefused := header_or_refused raw
  · exact .inl ⟨h, parse_toBytes_append h body hbound⟩
  · exact .inr hrefused

end Header

namespace Frame

variable {command : Command} {register : UInt8} {payload raw : Bytes} {length : Nat} {f : Frame}
  {e : FramingError}

/-- A frame that can be built: a write from its payload, a read from the length of its
answer. -/
inductive Built (f : Frame) : Prop
  | write {command : Command} {register : UInt8} {payload : Bytes}
      (hwrite : command.isWrite = true) (hlength : payload.length ≤ Header.maxPayload)
      (hbuilt : write command register payload = .ok f)
  | read {command : Command} {register : UInt8} {answerLength : Nat}
      (hread : command.isRead = true) (hlength : answerLength ≤ Header.maxPayload)
      (hbuilt : read command register answerLength = .ok f)

theorem isWrite_eq_false_iff : command.isWrite = false ↔ command.isRead = true := by
  simp [isRead]

theorem write_of_le (hwrite : command.isWrite = true)
    (hlength : payload.length ≤ Header.maxPayload) :
    write command register payload =
      .ok ⟨⟨command, register, UInt16.ofNat payload.length⟩, payload⟩ := by
  unfold write
  rw [if_neg (by simp [isRead, hwrite]), Header.ofLength_of_le hlength]
  rfl

theorem read_of_le (hread : command.isRead = true) (hlength : length ≤ Header.maxPayload) :
    read command register length = .ok ⟨⟨command, register, UInt16.ofNat length⟩, []⟩ := by
  unfold read
  rw [if_neg (by simp [isWrite_eq_false_iff.2 hread]), Header.ofLength_of_le hlength]
  rfl

theorem built_iff_valid : f.Built ↔ f.Valid := by
  constructor
  · intro hbuilt
    cases hbuilt with
    | @write command register payload hwrite hlength hbuilt =>
      rw [write_of_le hwrite hlength] at hbuilt
      obtain rfl := Except.ok.inj hbuilt
      have hkept : (UInt16.ofNat payload.length).toNat = payload.length :=
        Header.toNat_length hlength
      constructor
      · rw [hkept]
        exact hlength
      · rw [Header.followingLength_of_isWrite hwrite]
        exact hkept.symm
    | @read command register answerLength hread hlength hbuilt =>
      rw [read_of_le hread hlength] at hbuilt
      obtain rfl := Except.ok.inj hbuilt
      constructor
      · rw [Header.toNat_length hlength]
        exact hlength
      · rw [Header.followingLength_of_not_isWrite (isWrite_eq_false_iff.2 hread)]
        rfl
  · intro hvalid
    rcases hwrite : f.header.command.isWrite with _ | _
    · have hread := isWrite_eq_false_iff.1 hwrite
      have hnil : f.payload = [] :=
        payload_eq_nil hvalid (Header.followingLength_of_not_isWrite hwrite)
      apply @Built.read f _ f.header.register _ hread hvalid.bound
      rw [read_of_le hread hvalid.bound, UInt16.ofNat_toNat, ← hnil]
    · have hlength : f.payload.length = f.header.payloadLength.toNat := by
        rw [hvalid.payload, Header.followingLength_of_isWrite hwrite]
      have hbound : f.payload.length ≤ Header.maxPayload := by
        rw [hlength]
        exact hvalid.bound
      apply @Built.write f _ f.header.register _ hwrite hbound
      rw [write_of_le hwrite hbound, hlength, UInt16.ofNat_toNat]

/-- Why a byte string is no frame: the report, and what it stands for. -/
inductive Refused : Bytes → FramingError → Prop
  | header {raw : Bytes} {e : FramingError} (hheader : Header.Refused raw e) : Refused raw e
  | incomplete {h : Header} {body : Bytes} (hbound : h.payloadLength.toNat ≤ Header.maxPayload)
      (hlength : body.length < h.followingLength) :
      Refused (h.toBytes ++ body) (.truncated h.frameLength (h.toBytes ++ body).length)
  | excessive {h : Header} {body : Bytes} (hbound : h.payloadLength.toNat ≤ Header.maxPayload)
      (hlength : h.followingLength < body.length) :
      Refused (h.toBytes ++ body)
        (.payloadTooLarge ((h.toBytes ++ body).length - Header.size) h.followingLength)

theorem parse_of_refused (hrefused : Refused raw e) : parse raw = .error e := by
  cases hrefused with
  | header hheader => rw [parse, Header.parse_of_refused hheader]; rfl
  | @incomplete h body hbound hlength =>
    have hshort : (h.toBytes ++ body).length < h.frameLength := by
      rw [List.length_append, Header.length_toBytes, Header.frameLength]
      omega
    simp only [parse, Header.parse_toBytes_append h body hbound, bind, Except.bind,
      if_pos hshort]
  | @excessive h body hbound hlength =>
    have hlong : h.frameLength < (h.toBytes ++ body).length := by
      rw [List.length_append, Header.length_toBytes, Header.frameLength]
      omega
    simp only [parse, Header.parse_toBytes_append h body hbound, bind, Except.bind,
      if_neg (Nat.lt_asymm hlong), if_pos hlong]

theorem frame_or_refused (raw : Bytes) :
    (∃ f : Frame, f.Valid ∧ f.toBytes = raw) ∨ ∃ e, Refused raw e := by
  obtain ⟨h, body, hbound, rfl⟩ | ⟨e, hrefused⟩ := Header.header_or_refused raw
  · rcases Nat.lt_trichotomy body.length h.followingLength with hlength | hlength | hlength
    · exact .inr ⟨_, .incomplete hbound hlength⟩
    · exact .inl ⟨⟨h, body⟩, ⟨hbound, hlength⟩, rfl⟩
    · exact .inr ⟨_, .excessive hbound hlength⟩
  · exact .inr ⟨e, .header hrefused⟩

theorem parse_eq_error_iff : parse raw = .error e ↔ Refused raw e := by
  apply FramingError.eq_error_iff_of_reasons fun _ => parse_of_refused
  obtain ⟨f, hframe⟩ | hrefused := frame_or_refused raw
  · exact .inl ⟨f, parse_eq_ok_iff.2 hframe⟩
  · exact .inr hrefused

theorem parse_eq_ok_iff_built : parse raw = .ok f ↔ f.Built ∧ f.toBytes = raw := by
  rw [parse_eq_ok_iff, built_iff_valid]

theorem exists_write_iff : (∃ f, write command register payload = .ok f) ↔
    command.isWrite = true ∧ payload.length ≤ Header.maxPayload := by
  constructor
  · rintro ⟨f, hbuilt⟩
    unfold write at hbuilt
    split at hbuilt
    · cases hbuilt
    rename_i hread
    refine ⟨by simpa [isRead] using hread, ?_⟩
    rcases hheader : Header.ofLength command register payload.length with e | h
    · rw [hheader] at hbuilt
      cases hbuilt
    · exact Header.le_of_ofLength hheader
  · rintro ⟨hwrite, hlength⟩
    exact ⟨_, write_of_le hwrite hlength⟩

theorem exists_read_iff : (∃ f, read command register length = .ok f) ↔
    command.isRead = true ∧ length ≤ Header.maxPayload := by
  constructor
  · rintro ⟨f, hbuilt⟩
    unfold read at hbuilt
    split at hbuilt
    · cases hbuilt
    rename_i hwrite
    refine ⟨isWrite_eq_false_iff.1 (Bool.eq_false_iff.2 hwrite), ?_⟩
    rcases hheader : Header.ofLength command register length with e | h
    · rw [hheader] at hbuilt
      cases hbuilt
    · exact Header.le_of_ofLength hheader
  · rintro ⟨hread, hlength⟩
    exact ⟨_, read_of_le hread hlength⟩

theorem take_toBytes_of_valid (hf : f.Valid) :
    Header.build f.header.command f.header.register f.header.payloadLength.toNat =
      .ok (f.toBytes.take Header.size) := by
  have hfront : f.toBytes.take Header.size = f.header.toBytes := by
    rw [toBytes, ← Header.length_toBytes f.header, List.take_left]
  rw [hfront]
  exact Header.build_parts hf.bound

/-- Building and reading are inverse.  A byte string is read as a frame exactly if the frame can
be built, as a write with its payload or as a read with the length of its answer, and is written
as that byte string; every other one is refused for the first thing that is the matter with it.
The header by itself is built and read as the first four bytes of the frame, and a length out of
bounds is refused however large it is. -/
theorem parse_accepts_built (raw : Bytes) :
    (∀ f, parse raw = .ok f ↔ f.Built ∧ f.toBytes = raw) ∧
      (∀ e, parse raw = .error e ↔ Refused raw e) ∧
      (∀ f, parse raw = .ok f →
        Header.parse raw = .ok f.header ∧ f.header.frameLength = raw.length) ∧
      (∀ f : Frame, f.Built → parse f.toBytes = .ok f ∧
        Header.build f.header.command f.header.register f.header.payloadLength.toNat =
          .ok (f.toBytes.take Header.size)) ∧
      (∀ command register payload, (∃ f, write command register payload = .ok f) ↔
        command.isWrite = true ∧ payload.length ≤ Header.maxPayload) ∧
      (∀ command register answerLength, (∃ f, read command register answerLength = .ok f) ↔
        command.isRead = true ∧ answerLength ≤ Header.maxPayload) ∧
      (∀ e, Header.parse raw = .error e ↔ Header.Refused raw e) ∧
      ∀ command register length,
        (length ≤ Header.maxPayload → ∃ bytes h, Header.build command register length = .ok bytes ∧
          bytes.length = Header.size ∧ Header.parse (bytes ++ raw) = .ok h ∧
            h.command = command ∧ h.register = register ∧ h.payloadLength.toNat = length) ∧
        (Header.maxPayload < length → Header.build command register length =
          .error (.payloadTooLarge length Header.maxPayload)) := by
  refine ⟨fun f => parse_eq_ok_iff_built, fun e => parse_eq_error_iff, ?_, ?_,
    fun _ _ _ => exists_write_iff, fun _ _ _ => exists_read_iff,
    fun e => Header.parse_eq_error_iff, ?_⟩
  · intro f hparse
    obtain ⟨hheader, hlength⟩ := header_of_parse hparse
    exact ⟨hheader, hlength.symm⟩
  · intro f hbuilt
    have hvalid := built_iff_valid.1 hbuilt
    exact ⟨parse_eq_ok_iff.2 ⟨hvalid, rfl⟩, take_toBytes_of_valid hvalid⟩
  · intro command register length
    refine ⟨fun hlength => ?_, Header.build_of_lt⟩
    obtain ⟨bytes, hbuild, hsize, hparse⟩ := Header.parse_build hlength raw
    exact ⟨bytes, _, hbuild, hsize, hparse, rfl, rfl, Header.toNat_length hlength⟩

/-- The longest answer that can be asked for: its length takes both bytes, and one more is out of
bounds. -/
theorem parse_accepts_built_of_longest :
    Frame.Built ⟨⟨.readRegister, 7, 256⟩, []⟩ ∧
      parse [1, 7, 0, 1] = .ok ⟨⟨.readRegister, 7, 256⟩, []⟩ ∧
      parse [1, 7, 1, 1] = .error (.payloadTooLarge 257 256) := by
  have hbuilt : Frame.Built ⟨⟨.readRegister, 7, 256⟩, []⟩ :=
    @Built.read _ .readRegister 7 256 rfl (by decide) rfl
  refine ⟨hbuilt, ((parse_accepts_built []).2.2.2.1 _ hbuilt).1, ?_⟩
  apply ((parse_accepts_built [1, 7, 1, 1]).2.1 _).2
  exact .header (@Header.Refused.outOfBounds 1 1 1 7 [] (by decide) (by decide))

end Frame

end SpiBridge.Command
