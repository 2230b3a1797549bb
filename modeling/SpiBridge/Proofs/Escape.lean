import SpiBridge.Bridge.Intake
/-!
# Decoding in pieces

The bus hands over the written form in pieces of any size, so a piece may end
between a mark and its follower.  Main statements: feeding two pieces is feeding
their concatenation, and a decoder that is fed with a piece of a written form
gives the raw bytes that the piece completes and still owes the written form of
the others.
-/

namespace SpiBridge

namespace Escape.Decoder

/-- The mark that a decoder has taken and not yet answered with a raw byte. -/
def held (d : Decoder) : Bytes :=
  if d.pending then [mark] else []

@[simp] theorem held_mk_false : held ⟨false⟩ = [] := rfl

@[simp] theorem held_mk_true : held ⟨true⟩ = [mark] := rfl

theorem held_eq_nil_iff {d : Decoder} : d.held = [] ↔ d.pending = false := by
  cases d with
  | mk pending => cases pending <;> simp

@[simp] theorem feedAll_nil (d : Decoder) : d.feedAll [] = { decoder := d } := rfl

theorem feedAll_cons_of_ok {d d' : Decoder} {byte : UInt8} {out : Option UInt8}
    (h : d.feed byte = (.ok out, d')) (rest : Bytes) :
    d.feedAll (byte :: rest) = (d'.feedAll rest).withByte out := by
  rw [feedAll, h]

theorem feedAll_cons_of_error {d d' : Decoder} {byte : UInt8} {e : FramingError}
    (h : d.feed byte = (.error e, d')) (rest : Bytes) :
    d.feedAll (byte :: rest) = { failure := some e, decoder := d' } := by
  rw [feedAll, h]

theorem feedAll_append {d : Decoder} {front : Bytes} (back : Bytes)
    (h : (d.feedAll front).failure = none) :
    d.feedAll (front ++ back) =
      { (d.feedAll front).decoder.feedAll back with
        raw := (d.feedAll front).raw ++ ((d.feedAll front).decoder.feedAll back).raw } := by
  induction front generalizing d with
  | nil => rfl
  | cons byte rest ih =>
    rcases hfeed : d.feed byte with ⟨_ | out, d'⟩
    · rw [feedAll_cons_of_error hfeed] at h
      simp at h
    · rw [feedAll_cons_of_ok hfeed] at h ⊢
      rw [List.cons_append, feedAll_cons_of_ok hfeed, ih h]
      simp [Fed.withByte]

theorem pending_of_feed_some {d d' : Decoder} {byte raw : UInt8}
    (h : d.feed byte = (.ok (some raw), d')) : d'.pending = false := by
  unfold feed at h
  split at h
  · simp only [Prod.mk.injEq] at h
    rw [← h.2]
  · split at h <;> simp only [Prod.mk.injEq, Except.ok.injEq, reduceCtorEq, false_and] at h
    rw [← h.2]

theorem length_raw_feedAll_le (d : Decoder) (bytes : Bytes) :
    (d.feedAll bytes).raw.length ≤ bytes.length := by
  induction bytes generalizing d with
  | nil => simp
  | cons byte rest ih =>
    rcases hfeed : d.feed byte with ⟨_ | out, d'⟩
    · rw [feedAll_cons_of_error hfeed]
      simp
    · have hrest := ih d'
      rw [feedAll_cons_of_ok hfeed]
      cases out <;> simp [Fed.withByte] <;> omega

theorem pending_of_length_raw_eq {d : Decoder} {bytes : Bytes} (hne : bytes ≠ [])
    (hok : (d.feedAll bytes).failure = none)
    (hlength : (d.feedAll bytes).raw.length = bytes.length) :
    (d.feedAll bytes).decoder.pending = false := by
  induction bytes generalizing d with
  | nil => exact absurd rfl hne
  | cons byte rest ih =>
    rcases hfeed : d.feed byte with ⟨_ | out, d'⟩
    · rw [feedAll_cons_of_error hfeed] at hok
      simp at hok
    · rw [feedAll_cons_of_ok hfeed] at hok hlength ⊢
      have hle := length_raw_feedAll_le d' rest
      cases out with
      | none =>
        simp only [Fed.withByte, Option.toList_none, List.nil_append, List.length_cons] at hlength
        omega
      | some raw =>
        by_cases hrest : rest = []
        · subst hrest
          simpa [Fed.withByte] using pending_of_feed_some hfeed
        · refine ih hrest hok ?_
          simpa [Fed.withByte] using hlength

theorem feedAll_of_encode {d : Decoder} {piece tail raw : Bytes}
    (h : d.held ++ (piece ++ tail) = encode raw) :
    ∃ given left d', raw = given ++ left ∧
      d.feedAll piece = { raw := given, decoder := d' } ∧ d'.held ++ tail = encode left := by
  induction piece generalizing d raw with
  | nil => exact ⟨[], raw, d, rfl, rfl, h⟩
  | cons byte rest ih =>
    cases raw with
    | nil => simp [held] at h
    | cons first others =>
      rw [encode_cons] at h
      rcases d with ⟨_ | _⟩
      · -- At rest: the byte is a mark, or stands for itself.
        by_cases hfirst : first = mark
        · subst hfirst
          simp only [held_mk_false, List.nil_append, List.cons_append, if_true,
            List.cons.injEq] at h
          obtain ⟨rfl, h⟩ := h
          have hfeed : (Decoder.mk false).feed mark = (.ok none, ⟨true⟩) := rfl
          have hheld : (Decoder.mk true).held ++ (rest ++ tail) = encode (mark :: others) := by
            simp [encode_cons, h]
          obtain ⟨given, left, d', hraw, hfed, hleft⟩ := ih hheld
          exact ⟨given, left, d', hraw, by rw [feedAll_cons_of_ok hfeed, hfed]; rfl, hleft⟩
        · simp only [held_mk_false, List.nil_append, List.cons_append, if_neg hfirst,
            List.cons.injEq] at h
          obtain ⟨rfl, h⟩ := h
          have hfeed : (Decoder.mk false).feed byte = (.ok (some byte), ⟨false⟩) := by
            simp [feed, hfirst]
          have hheld : (Decoder.mk false).held ++ (rest ++ tail) = encode others := h
          obtain ⟨given, left, d', hraw, hfed, hleft⟩ := ih hheld
          exact ⟨byte :: given, left, d', by rw [hraw]; rfl,
            by rw [feedAll_cons_of_ok hfeed, hfed]; rfl, hleft⟩
      · -- Holding a mark: the byte is its follower.
        by_cases hfirst : first = mark
        · subst hfirst
          simp only [held_mk_true, List.cons_append, List.nil_append, if_true,
            List.cons.injEq, true_and] at h
          obtain ⟨rfl, h⟩ := h
          have hfeed : (Decoder.mk true).feed follower = (.ok (some mark), ⟨false⟩) := rfl
          have hheld : (Decoder.mk false).held ++ (rest ++ tail) = encode others := h
          obtain ⟨given, left, d', hraw, hfed, hleft⟩ := ih hheld
          exact ⟨mark :: given, left, d', by rw [hraw]; rfl,
            by rw [feedAll_cons_of_ok hfeed, hfed]; rfl, hleft⟩
        · simp only [held_mk_true, List.cons_append, if_neg hfirst, List.cons.injEq] at h
          exact absurd h.1.symm hfirst

end Escape.Decoder

end SpiBridge
