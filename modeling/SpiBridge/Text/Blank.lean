/-!
# Blanks

The characters with the Unicode property White_Space, and a text without those
at its two ends.  Main statement: neither end of a trimmed text is a blank.
-/

namespace SpiBridge.Text

/-- The first and last code points of the runs of blanks. -/
def blankRuns : List (Nat × Nat) :=
  [(0x09, 0x0d), (0x20, 0x20), (0x85, 0x85), (0xa0, 0xa0), (0x1680, 0x1680), (0x2000, 0x200a),
   (0x2028, 0x2029), (0x202f, 0x202f), (0x205f, 0x205f), (0x3000, 0x3000)]

def isBlank (c : Char) : Bool :=
  blankRuns.any fun run => run.1 ≤ c.toNat && c.toNat ≤ run.2

def trim (text : List Char) : List Char :=
  ((text.dropWhile isBlank).reverse.dropWhile isBlank).reverse

private theorem not_of_head?_dropWhile {p : Char → Bool} {text : List Char} {c : Char}
    (h : (text.dropWhile p).head? = some c) : p c = false := by
  have hstop := List.head?_dropWhile_not p text
  rw [h] at hstop
  simpa using hstop

private theorem head?_dropWhile_back {p : Char → Bool} {text : List Char} {c : Char}
    (h : text.head? = some c) (hc : p c = false) :
    (text.reverse.dropWhile p).reverse.head? = some c := by
  cases text with
  | nil => simp at h
  | cons d rest =>
    obtain rfl : d = c := by simpa using h
    rw [List.reverse_cons, List.dropWhile_append]
    split <;> simp [hc]

theorem not_isBlank_of_head?_trim {text : List Char} {c : Char}
    (h : (trim text).head? = some c) : isBlank c = false := by
  cases hfront : (text.dropWhile isBlank).head? with
  | none =>
    rw [List.head?_eq_none_iff] at hfront
    simp [trim, hfront] at h
  | some d =>
    have hd := not_of_head?_dropWhile hfront
    have htrim : (trim text).head? = some d := head?_dropWhile_back hfront hd
    rw [htrim] at h
    obtain rfl : d = c := by simpa using h
    exact hd

theorem not_isBlank_of_getLast?_trim {text : List Char} {c : Char}
    (h : (trim text).getLast? = some c) : isBlank c = false := by
  rw [trim, List.getLast?_reverse] at h
  exact not_of_head?_dropWhile h

end SpiBridge.Text
