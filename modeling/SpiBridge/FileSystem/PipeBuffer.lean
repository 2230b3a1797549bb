import SpiBridge.Bytes
/-!
# The buffer of a pipe

A pipe keeps its bytes in at most sixteen pages.  A write may use the room left
on the last page for the bytes that would not fill a page of their own; all
others start a new page.  A page is given back when all its bytes were read, so
a pipe may have no page left though fewer bytes wait than it could hold.
-/

namespace SpiBridge

/-- A page: the bytes that wait on it, and the room behind them. -/
structure Page where
  bytes : Bytes
  room : Nat
  deriving DecidableEq, Repr

namespace Page

def size : Nat := 4096

def ofBytes (bytes : Bytes) : Page :=
  ⟨bytes, size - bytes.length⟩

end Page

structure PipeBuffer where
  pages : List Page := []
  deriving DecidableEq, Repr

namespace PipeBuffer

def limit : Nat := 16

def waiting (b : PipeBuffer) : Bytes :=
  b.pages.flatMap Page.bytes

def isFull (b : PipeBuffer) : Bool :=
  limit ≤ b.pages.length

/-- Lays bytes on new pages, on so many at most. -/
def layOut : Nat → Bytes → List Page
  | 0, _ => []
  | pages + 1, bytes =>
    if bytes = [] then []
    else .ofBytes (bytes.take Page.size) :: layOut pages (bytes.drop Page.size)

def extend (b : PipeBuffer) (bytes : Bytes) : PipeBuffer :=
  ⟨b.pages ++ layOut (limit - b.pages.length) bytes⟩

def write (b : PipeBuffer) (bytes : Bytes) : PipeBuffer :=
  let odd := bytes.length % Page.size
  match b.pages.getLast? with
  | none => b.extend bytes
  | some last =>
    if odd ≤ last.room then
      let filled := ⟨last.bytes ++ bytes.take odd, last.room - odd⟩
      PipeBuffer.extend ⟨b.pages.dropLast ++ [filled]⟩ (bytes.drop odd)
    else
      b.extend bytes

def readPages : List Page → Nat → Bytes × List Page
  | [], _ => ([], [])
  | page :: rest, count =>
    if count < page.bytes.length then
      (page.bytes.take count, { page with bytes := page.bytes.drop count } :: rest)
    else
      let (bytes, left) := readPages rest (count - page.bytes.length)
      (page.bytes ++ bytes, left)

def read (b : PipeBuffer) (count : Nat) : Bytes × PipeBuffer :=
  let (bytes, left) := readPages b.pages count
  (bytes, ⟨left⟩)

end PipeBuffer

end SpiBridge
