import RouterConfig.Text.Numerals

/-!
# RouterConfig — sets of code points

A set of code points is given by the points at which membership changes, in increasing order. That
makes every operation on sets one pass over the points of both. Main results:

* `CodeSet.has_combine` — what is in a combination of two sets depends on what is in each of them.
-/

namespace RouterConfig.Unicode

/-- A set of code points: an edge is a first code point inside, or a first one outside again. -/
structure CodeSet where
  edges : List Nat
  deriving DecidableEq

namespace CodeSet

/-- Whether `n` is inside, from a place before all of `edges` that is inside or not. -/
def insideAt (n : Nat) : (inside : Bool) → (edges : List Nat) → Bool
  | inside, [] => inside
  | inside, edge :: rest => if n < edge then inside else insideAt n (!inside) rest

/-- Whether the set holds a code point. -/
def has (s : CodeSet) (n : Nat) : Bool := insideAt n false s.edges

/-! ## Combinations -/

/-- Edges behind a place where membership may change. -/
def edgeIf (edge : Nat) (before after : Bool) (rest : List Nat) : List Nat :=
  if before = after then rest else edge :: rest

/-- The edges of the combination of two sets by `f`, from a place where both memberships are
known. -/
def combineEdges (f : Bool → Bool → Bool) : (inA inB : Bool) → List Nat → List Nat → List Nat
  | _, _, [], [] => []
  | inA, inB, a :: as, [] =>
    edgeIf a (f inA inB) (f (!inA) inB) (combineEdges f (!inA) inB as [])
  | inA, inB, [], b :: bs =>
    edgeIf b (f inA inB) (f inA (!inB)) (combineEdges f inA (!inB) [] bs)
  | inA, inB, a :: as, b :: bs =>
    if a < b then
      edgeIf a (f inA inB) (f (!inA) inB) (combineEdges f (!inA) inB as (b :: bs))
    else if b < a then
      edgeIf b (f inA inB) (f inA (!inB)) (combineEdges f inA (!inB) (a :: as) bs)
    else
      edgeIf a (f inA inB) (f (!inA) (!inB)) (combineEdges f (!inA) (!inB) as bs)
termination_by _ _ as bs => as.length + bs.length

/-- The combination of two sets by an operation that is false where both memberships are. -/
def combine (f : Bool → Bool → Bool) (a b : CodeSet) : CodeSet :=
  ⟨combineEdges f false false a.edges b.edges⟩

/-- The set of nothing. -/
def empty : CodeSet := ⟨[]⟩

/-- The code points from `first` to `last`. -/
def range (first last : Nat) : CodeSet := ⟨[first, last + 1]⟩

/-- The set of one code point. -/
def single (n : Nat) : CodeSet := range n n

instance : Union CodeSet := ⟨combine (· || ·)⟩
instance : Inter CodeSet := ⟨combine (· && ·)⟩

/-- What is in the first set, but not in the second. -/
def diff : CodeSet → CodeSet → CodeSet := combine fun inA inB => inA && !inB

/-- What is in one of two sets, but not in both. -/
def symmetric : CodeSet → CodeSet → CodeSet := combine (· != ·)

/-- Every code point of a character: surrogates are none. -/
def everything : CodeSet := ⟨[0, 0xD800, 0xE000, 0x110000]⟩

/-- Every character that is not in the set. -/
def complement (s : CodeSet) : CodeSet := everything.diff s

/-- The union of some sets. -/
def unionOf (sets : List CodeSet) : CodeSet := sets.foldl (· ∪ ·) empty

/-- The union of some ranges. -/
def ofRanges (ranges : List (Nat × Nat)) : CodeSet :=
  unionOf (ranges.map fun (first, last) => range first last)

/-! ## Parts -/

/-- The first and the last code point of each stretch of edges. -/
def stretches : (edges : List Nat) → List (Nat × Nat)
  | first :: behind :: rest => (first, behind - 1) :: stretches rest
  | [first] => [(first, 0x10FFFF)]
  | [] => []

/-- The ranges of which the set consists, in order. -/
def ranges (s : CodeSet) : List (Nat × Nat) := stretches s.edges

/-- Whether the set holds ASCII characters alone. -/
def isAscii (s : CodeSet) : Bool := s.edges.all fun edge => edge ≤ 0x80

/-! ## Tables -/

/-- The edges that a word of a table stands for: a code point, or a first and a last one, of which a
mark behind them takes every second only. -/
def wordEdges (word : String) : List Nat :=
  let number (digits : List Char) : Nat := (hexNumber? digits).getD 0
  let first := word.toList.takeWhile fun c => c ≠ '-'
  let low := number first
  match word.toList.drop first.length with
  | _ :: rest =>
    let high := number (rest.takeWhile fun c => c ≠ '/')
    if rest.contains '/' then
      (List.range ((high - low) / 2 + 1)).flatMap fun k => [low + 2 * k, low + 2 * k + 1]
    else [low, high + 1]
  | [] => [low, low + 1]

/-- The words of a table, with blanks and line ends between them. -/
def wordsOfTable (table : String) : List String :=
  ((table.splitOn "\n").flatMap fun line => line.splitOn " ").filter fun word => !word.isEmpty

/-- The set that a table lists, in order and with gaps between its words. -/
def ofTable (table : String) : CodeSet := ⟨(wordsOfTable table).flatMap wordEdges⟩

/-! ## Laws -/

/-- The set lists its edges in order. -/
def Ordered (s : CodeSet) : Prop := s.edges.Pairwise (· < ·)

theorem insideAt_of_lt {n : Nat} {edges : List Nat} (h : ∀ e ∈ edges, n < e) (inside : Bool) :
    insideAt n inside edges = inside := by
  cases edges with
  | nil => rfl
  | cons e rest => simp [insideAt, h e List.mem_cons_self]

theorem insideAt_edgeIf (n edge : Nat) (before after : Bool) (rest : List Nat) :
    insideAt n before (edgeIf edge before after rest) =
      if before = after then insideAt n before rest
      else if n < edge then before else insideAt n after rest := by
  cases before <;> cases after <;> simp [edgeIf, insideAt]

theorem mem_edgeIf {e edge : Nat} {before after : Bool} {rest : List Nat}
    (h : e ∈ edgeIf edge before after rest) : e = edge ∨ e ∈ rest := by
  simp only [edgeIf] at h
  grind

theorem mem_combineEdges {f : Bool → Bool → Bool} {inA inB : Bool} {as bs : List Nat} {e : Nat}
    (h : e ∈ combineEdges f inA inB as bs) : e ∈ as ∨ e ∈ bs := by
  fun_induction combineEdges f inA inB as bs with
  | case1 => simp at h
  | case2 => rcases mem_edgeIf h with h | h <;> grind
  | case3 => rcases mem_edgeIf h with h | h <;> grind
  | case4 => rcases mem_edgeIf h with h | h <;> grind
  | case5 => rcases mem_edgeIf h with h | h <;> grind
  | case6 => rcases mem_edgeIf h with h | h <;> grind

/-- A pass that has gone over an edge goes on as from behind it, if all that is left lies
further. -/
theorem insideAt_edgeIf_of_lt {n edge : Nat} {before after : Bool} {rest : List Nat}
    (h : ∀ e ∈ rest, edge < e) :
    insideAt n before (edgeIf edge before after rest) =
      if n < edge then before else insideAt n after rest := by
  rw [insideAt_edgeIf]
  by_cases hsame : before = after
  · subst hsame
    simp only [if_true]
    split
    · rename_i hn
      exact insideAt_of_lt (fun e he => Nat.lt_trans hn (h e he)) before
    · rfl
  · simp [hsame]

theorem insideAt_combineEdges (f : Bool → Bool → Bool) {as bs : List Nat}
    (ha : as.Pairwise (· < ·)) (hb : bs.Pairwise (· < ·)) (inA inB : Bool) (n : Nat) :
    insideAt n (f inA inB) (combineEdges f inA inB as bs) =
      f (insideAt n inA as) (insideAt n inB bs) := by
  fun_induction combineEdges f inA inB as bs with
  | case1 => simp [insideAt]
  | case2 inA inB a as ih =>
    rw [List.pairwise_cons] at ha
    rw [insideAt_edgeIf_of_lt fun e he => by grind [mem_combineEdges he], ih ha.2 hb]
    simp only [insideAt]
    split <;> rfl
  | case3 inA inB b bs ih =>
    rw [List.pairwise_cons] at hb
    rw [insideAt_edgeIf_of_lt fun e he => by grind [mem_combineEdges he], ih ha hb.2]
    simp only [insideAt]
    split <;> rfl
  | case4 inA inB a as b bs hlt ih =>
    have hb' := hb
    rw [List.pairwise_cons] at ha hb
    rw [insideAt_edgeIf_of_lt fun e he => by grind [mem_combineEdges he], ih ha.2 hb']
    simp only [insideAt]
    grind
  | case5 inA inB a as b bs hle hlt ih =>
    have ha' := ha
    rw [List.pairwise_cons] at ha hb
    rw [insideAt_edgeIf_of_lt fun e he => by grind [mem_combineEdges he], ih ha' hb.2]
    simp only [insideAt]
    grind
  | case6 inA inB a as b bs hle hge ih =>
    have heq : a = b := by omega
    subst heq
    rw [List.pairwise_cons] at ha hb
    rw [insideAt_edgeIf_of_lt fun e he => by grind [mem_combineEdges he], ih ha.2 hb.2]
    simp only [insideAt]
    split <;> rfl

theorem has_combine (f : Bool → Bool → Bool) (hf : f false false = false) {a b : CodeSet}
    (ha : a.Ordered) (hb : b.Ordered) (n : Nat) :
    (combine f a b).has n = f (a.has n) (b.has n) := by
  have h := insideAt_combineEdges f ha hb false false n
  rw [hf] at h
  exact h

end CodeSet

end RouterConfig.Unicode
