import SpiBridge.Proofs.Escape
/-!
# Which byte strings are written forms

Every byte string has one written form.  A byte string that is not a written form has
a mark without its follower, and decoding refuses it.  Main statement: decoding
accepts exactly the written forms, and takes each back to what it stands for.
-/

namespace SpiBridge.Escape

namespace Decoder

variable {d d' : Decoder} {byte : UInt8} {wire : Bytes}

theorem held_append_of_feed {out : Option UInt8} (h : d.feed byte = (.ok out, d')) :
    d.held ++ [byte] = encode out.toList ++ d'.held := by
  rcases d with ⟨_ | _⟩
  · by_cases hbyte : byte = mark
    · subst hbyte
      obtain ⟨rfl, rfl⟩ : none = out ∧ Decoder.mk true = d' := by simpa [feed] using h
      rfl
    · obtain ⟨rfl, rfl⟩ : some byte = out ∧ Decoder.mk false = d' := by
        simpa [feed, hbyte] using h
      simp [encode, hbyte]
  · by_cases hbyte : byte = follower
    · subst hbyte
      obtain ⟨rfl, rfl⟩ : some mark = out ∧ Decoder.mk false = d' := by simpa [feed] using h
      rfl
    · simp [feed, hbyte] at h

theorem held_append_of_feedAll (h : (d.feedAll wire).failure = none) :
    d.held ++ wire = encode (d.feedAll wire).raw ++ (d.feedAll wire).decoder.held := by
  induction wire generalizing d with
  | nil => simp
  | cons byte rest ih =>
    rcases hfeed : d.feed byte with ⟨_ | out, d'⟩
    · rw [feedAll_cons_of_error hfeed] at h
      cases h
    · rw [feedAll_cons_of_ok hfeed] at h ⊢
      have hbyte := held_append_of_feed hfeed
      calc d.held ++ byte :: rest
          = (d.held ++ [byte]) ++ rest := by simp
        _ = encode out.toList ++ (d'.held ++ rest) := by rw [hbyte, List.append_assoc]
        _ = encode out.toList ++ (encode (d'.feedAll rest).raw ++
              (d'.feedAll rest).decoder.held) := by rw [ih h]
        _ = _ := by simp [Fed.withByte, encode_append]

theorem held_of_finish (h : d.finish = .ok ()) : d.held = [] := by
  unfold finish at h
  split at h
  · cases h
  · rename_i hrest
    rw [held_eq_nil_iff]
    exact Bool.eq_false_iff.2 hrest

theorem eq_danglingEscape_of_feed {e : FramingError} (h : d.feed byte = (.error e, d')) :
    e = .danglingEscape := by
  unfold feed at h
  split at h
  · by_cases hbyte : byte = follower
    · simp [hbyte] at h
    · simp only [hbyte, if_false, Prod.mk.injEq, Except.error.injEq] at h
      exact h.1.symm
  · split at h <;> cases h

theorem eq_danglingEscape_of_feedAll {e : FramingError} (h : (d.feedAll wire).failure = some e) :
    e = .danglingEscape := by
  induction wire generalizing d with
  | nil => cases h
  | cons byte rest ih =>
    rcases hfeed : d.feed byte with ⟨e' | out, d'⟩
    · rw [feedAll_cons_of_error hfeed] at h
      obtain rfl := Option.some.inj h
      exact eq_danglingEscape_of_feed hfeed
    · rw [feedAll_cons_of_ok hfeed] at h
      exact ih h

end Decoder

variable {wire raw : Bytes}

theorem eq_encode_of_decode (h : decode wire = .ok raw) : wire = encode raw := by
  unfold decode Decoder.Fed.finish at h
  split at h
  · cases h
  rename_i hfailure
  have hform := Decoder.held_append_of_feedAll hfailure
  rcases hend : ((Decoder.mk false).feedAll wire).decoder.finish with e | _ <;>
    simp only [hend, Except.map, Except.ok.injEq, reduceCtorEq] at h
  rwa [Decoder.held_of_finish hend, h, List.append_nil, Decoder.held_mk_false,
    List.nil_append] at hform

theorem decode_eq_ok_iff : decode wire = .ok raw ↔ wire = encode raw := by
  constructor
  · exact eq_encode_of_decode
  · rintro rfl
    exact decode_encode raw

theorem eq_danglingEscape_of_decode {e : FramingError} (h : decode wire = .error e) :
    e = .danglingEscape := by
  unfold decode Decoder.Fed.finish at h
  split at h
  · rename_i hfailure
    obtain rfl := Except.error.inj h
    exact Decoder.eq_danglingEscape_of_feedAll hfailure
  · unfold Decoder.finish at h
    split at h <;> cases h
    rfl

theorem decode_eq_error (h : ∀ raw, wire ≠ encode raw) :
    decode wire = .error .danglingEscape := by
  rcases hdecode : decode wire with e | raw
  · rw [eq_danglingEscape_of_decode hdecode]
  · exact absurd (eq_encode_of_decode hdecode) (h raw)

theorem follower_of_mark {i : Nat} (h : (encode raw)[i]? = some mark) :
    (encode raw)[i + 1]? = some follower := by
  induction raw generalizing i with
  | nil => cases h
  | cons byte rest ih =>
    by_cases hbyte : byte = mark
    · subst hbyte
      simp only [encode, if_true] at h ⊢
      cases i with
      | zero => rfl
      | succ i =>
        cases i with
        | zero => exact absurd (Option.some.inj h) (by decide)
        | succ i => exact ih h
    · simp only [encode, if_neg hbyte] at h ⊢
      cases i with
      | zero => exact absurd (Option.some.inj h) hbyte
      | succ i => exact ih h

theorem encodeInto_eq (written raw : Bytes) : encodeInto written raw = written ++ encode raw := by
  induction raw generalizing written with
  | nil => simp [encodeInto]
  | cons byte rest ih =>
    rw [encodeInto, encode_cons, ih]
    by_cases hbyte : byte = mark
    · simp [hbyte]
    · simp [hbyte]

/-- Decoding and writing are inverse: decoding accepts the written forms and nothing else, and
says of everything else that a mark lacks its follower.  A written form is as long as was
foretold, has no mark without its follower, is put together from the written forms of the
parts, and goes behind what is already there. -/
theorem decode_inverts_encode (wire raw : Bytes) :
    (decode wire = .ok raw ↔ wire = encode raw) ∧
      ((∀ raw, wire ≠ encode raw) → decode wire = .error .danglingEscape) ∧
      (encode raw).length = encodedLength raw ∧
      (∀ i, (encode raw)[i]? = some mark → (encode raw)[i + 1]? = some follower) ∧
      (∀ more, encode (raw ++ more) = encode raw ++ encode more) ∧
      ∀ written, encodeInto written raw = written ++ encode raw :=
  ⟨decode_eq_ok_iff, decode_eq_error, length_encode raw, fun _ => follower_of_mark,
    encode_append raw, fun written => encodeInto_eq written raw⟩

end SpiBridge.Escape
