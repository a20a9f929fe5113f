import RequestHedging.Latency.Bucket

/-!
# Histograms

How many samples fell into each bucket, in increasing order of the buckets.  A
histogram remembers a sample only by the least value of its bucket.
-/

namespace RequestHedging.Latency

/-- A bucket that holds samples, by its least value. -/
structure Cell where
  low : Nat
  count : Nat
deriving DecidableEq

structure Histogram where
  cells : List Cell
deriving DecidableEq

namespace Histogram

def empty : Histogram := ⟨[]⟩

instance : Inhabited Histogram := ⟨empty⟩

/-- Cells in increasing order with one more sample in the bucket of a least value. -/
def bump (low : Nat) : List Cell → List Cell
  | [] => [⟨low, 1⟩]
  | c :: cs =>
    if low < c.low then ⟨low, 1⟩ :: c :: cs
    else if low = c.low then ⟨c.low, c.count + 1⟩ :: cs
    else c :: bump low cs

def record (h : Histogram) (value : Nat) : Histogram := ⟨bump (bucketLow value) h.cells⟩

def size (h : Histogram) : Nat := h.cells.foldr (·.count + ·) 0

/-- The least value of the first cell up to which there are at least `rank` samples. -/
def seek (rank : Nat) : List Cell → Option Nat
  | [] => none
  | c :: cs => if rank ≤ c.count then some c.low else seek (rank - c.count) cs

/-- The least value of the bucket that holds the sample of a rank, counted from 1; zero if there
are not so many samples. -/
def valueAtRank (h : Histogram) (rank : Nat) : Nat := (seek rank h.cells).getD 0

theorem foldr_count_bump (low : Nat) (cells : List Cell) :
    (bump low cells).foldr (·.count + ·) 0 = cells.foldr (·.count + ·) 0 + 1 := by
  induction cells with
  | nil => rfl
  | cons c cs ih =>
    unfold bump
    split
    · simp only [List.foldr_cons]
      omega
    · split
      · simp only [List.foldr_cons]
        omega
      · simp only [List.foldr_cons, ih]
        omega

@[simp] theorem size_record (h : Histogram) (value : Nat) : (h.record value).size = h.size + 1 :=
  foldr_count_bump _ _

end Histogram

end RequestHedging.Latency
