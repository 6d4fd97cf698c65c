/-!
# Similar words

How alike two words are. Two equal letters match if they are less than half the longer word apart.
With `m` matches, of which `t` pairs are out of order, the similarity of words of `a` and `b` letters
is the mean of `m / a`, `m / b` and `(m - t) / m`. It is kept as a fraction.
-/

namespace LoxLexer.Command.Similar

/-- The first place from `low` up to `high`, in a text that begins at place `i`, that holds a letter
and is not taken. -/
def findPlace (low high : Nat) (c : Char) (taken : List Nat) (i : Nat) : List Char → Option Nat
  | [] => none
  | d :: ds =>
    if low ≤ i ∧ i < high ∧ c = d ∧ i ∉ taken then some i
    else findPlace low high c taken (i + 1) ds

/-- The matches of the letters of a word, which begins at place `i`, in another word: for each letter
that has one, the letter and the place of its match. -/
def matchesFrom (reach : Nat) (other : List Char) (taken : List Nat) (i : Nat) :
    List Char → List (Char × Nat)
  | [] => []
  | c :: cs =>
    match findPlace (i - reach) (i + reach + 1) c taken 0 other with
    | some j => (c, j) :: matchesFrom reach other (j :: taken) (i + 1) cs
    | none => matchesFrom reach other taken (i + 1) cs

/-- The matches of the letters of a word in another word. -/
def matchesOf (word other : List Char) : List (Char × Nat) :=
  matchesFrom (max word.length other.length / 2 - 1) other [] 0 word

/-- The letters of the other word at the places of the matches, in its own order. -/
def matchedIn (other : List Char) (ms : List (Char × Nat)) : List Char :=
  (other.zipIdx.filter fun p => ms.any fun m => m.2 == p.2).map Prod.fst

/-- The similarity of two words, as a numerator and a denominator. -/
def similarity (word other : List Char) : Nat × Nat :=
  let ms := matchesOf word other
  let m := ms.length
  let a := word.length
  let b := other.length
  let displaced := ((ms.map Prod.fst).zip (matchedIn other ms)).countP fun p => p.1 != p.2
  if a = 0 ∧ b = 0 then (1, 1)
  else if m = 0 then (0, 1)
  else (m * m * b + m * m * a + (m - displaced / 2) * a * b, 3 * m * a * b)

/-- Whether a similarity is at least seven tenths. -/
def isClose (s : Nat × Nat) : Bool :=
  7 * s.2 ≤ 10 * s.1

/-- The word of a list that is closest to a given one, if any is close; of two that are equally
close, the later one. -/
def closest? (word : String) (others : List String) : Option String :=
  let score (other : String) := similarity word.toList other.toList
  (others.filter fun other => isClose (score other)).foldl
    (fun best other =>
      match best with
      | none => some other
      | some b =>
        if (score b).1 * (score other).2 ≤ (score other).1 * (score b).2 then some other else some b)
    none

end LoxLexer.Command.Similar
