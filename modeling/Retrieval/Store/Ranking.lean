/-!
# Ranking

A list is ordered by merging its runs: stretches that rise already, or fall and are turned round.
Short runs are filled up by insertion first. Equal elements keep their order. Elements that cannot
be compared count as equal, and with them the outcome depends on which comparisons are made; so the
sizes of the runs, the order in which they are merged, and the leaps over many elements at once are
part of what is defined here.
-/

namespace Retrieval.Ranking

/-! ## Looking for a place -/

/-- The first place in `[low, high)` that does not pass, if all that pass come before all that do
not; else `high`. -/
def firstFailing (passes : Nat → Bool) (low high : Nat) : Nat :=
  if low < high then
    let mid := low + (high - low) / 2
    if passes mid then firstFailing passes (mid + 1) high else firstFailing passes low mid
  else low
termination_by high - low

/-- Strides of growing width, as long as they lead on: the last one that did, and the first one that
did not, or the limit. -/
def strides (leads : Nat → Bool) (limit last offset : Nat) : Nat × Nat :=
  if offset < limit && leads offset then strides leads limit offset (2 * offset + 1)
  else (last, min offset limit)
termination_by limit - offset
decreasing_by simp_all; omega

/-- The first of `length` places that does not pass, looked for in strides from a hint. -/
def boundary (passes : Nat → Bool) (length hint : Nat) : Nat :=
  if passes hint then
    let (last, offset) := strides (fun o => passes (hint + o)) (length - hint) 0 1
    firstFailing passes (hint + last + 1) (hint + offset)
  else
    let (last, offset) := strides (fun o => !passes (hint - o)) (hint + 1) 0 1
    firstFailing passes (hint + 1 - offset) (hint - last)

section

variable {α : Type} (less : α → α → Bool)

/-- Both elements are there, and the first one is less. -/
def isLess : Option α → Option α → Bool
  | some a, some b => less a b
  | _, _ => false

/-- Where an element goes behind all that it is not less than: how many of the `length` elements
from `start` on come before it. -/
def placeBehind (a : Option α) (run : Array α) (start length hint : Nat) : Nat :=
  boundary (fun i => !isLess less a run[start + i]?) length hint

def placeBefore (a : Option α) (run : Array α) (start length hint : Nat) : Nat :=
  boundary (fun i => isLess less run[start + i]? a) length hint

/-! ## Runs -/

/-- How long the run at the front is in which each element and the next one are related. -/
def runLength (related : α → α → Bool) : List α → Nat
  | a :: b :: rest => if related a b then runLength related (b :: rest) + 1 else 1
  | l => l.length

/-- Puts an element into an ordered array, behind all that it is not less than. -/
def insertRanked (sorted : Array α) (a : α) : Array α :=
  let i := firstFailing (fun i => !isLess less (some a) sorted[i]?) 0 sorted.size
  sorted.extract 0 i ++ #[a] ++ sorted.extract i sorted.size

/-- The run at the front of a list, turned round if it falls, and filled up by insertion to a least
length; and how many elements it has. -/
def frontRun (least : Nat) (l : List α) : Array α × Nat :=
  match l with
  | a :: b :: _ =>
    let falls := less b a
    let n := runLength (fun x y => if falls then less y x else !less y x) l
    let run := if falls then (l.take n).reverse else l.take n
    let size := max n (min least l.length)
    (((l.take size).drop n).foldl (insertRanked less) run.toArray, size)
  | l => (l.toArray, l.length)

/-- The least length of a run in a list of that length: it halves until it is below 64, and one is
added if a half was cut. -/
def leastLength (n : Nat) (cut : Bool) : Nat :=
  if 64 ≤ n then leastLength (n / 2) (cut || n % 2 == 1) else if cut then n + 1 else n
termination_by n

/-! ## Merging -/

/-- How a merge goes on: one by one, where wins in a row are counted, or in leaps. -/
inductive Gait where
  | walk (winsFirst winsSecond : Nat)
  | leap

/-- So many elements at once make another leap worth while; so many wins in a row, a first one. -/
def worthwhile : Nat := 7

/-- The gait after a win in a row of `wins`, and the patience that goes with it. -/
def gaitAfter (patience wins : Nat) (walk : Gait) : Gait × Nat :=
  if patience ≤ wins then (.leap, patience + 1) else (walk, patience)

/-- The gait after leaps over so many elements, and the patience that goes with it. -/
def gaitAfterLeaps (patience first second : Nat) : Gait × Nat :=
  if worthwhile ≤ first || worthwhile ≤ second then (.leap, patience)
  else (.walk 0 0, patience + 1)

/-- Merges what is left of two runs from the front, behind what is merged already. The first run has
at least two elements left. Also yields the patience that is left. -/
def mergeForward (a b : Array α) : Nat → Gait → Nat → Nat → Nat → Array α → Array α × Nat
  | 0, _, patience, i, j, out => (out ++ a.extract i a.size ++ b.extract j b.size, patience)
  | fuel + 1, gait, patience, i, j, out =>
    let joined (i j : Nat) (out : Array α) : Array α :=
      out ++ a.extract i a.size ++ b.extract j b.size
    let crossed (i j : Nat) (out : Array α) : Array α :=
      out ++ b.extract j b.size ++ a.extract i a.size
    match gait with
    | .walk winsFirst winsSecond =>
      if isLess less b[j]? a[i]? then
        let out := out ++ b.extract j (j + 1)
        if j + 1 = b.size then (joined i (j + 1) out, patience)
        else
          let (gait, patience) := gaitAfter patience (winsSecond + 1) (.walk 0 (winsSecond + 1))
          mergeForward a b fuel gait patience i (j + 1) out
      else
        let out := out ++ a.extract i (i + 1)
        if i + 2 = a.size then (crossed (i + 1) j out, patience)
        else
          let (gait, patience) := gaitAfter patience (winsFirst + 1) (.walk (winsFirst + 1) 0)
          mergeForward a b fuel gait patience (i + 1) j out
    | .leap =>
      let patience := max 1 (patience - 1)
      let m := placeBehind less b[j]? a i (a.size - i) 0
      let out := out ++ a.extract i (i + m)
      let i := i + m
      if 0 < m && i + 1 = a.size then (crossed i j out, patience)
      else if 0 < m && i = a.size then (joined i j out, patience)
      else
        let out := out ++ b.extract j (j + 1)
        let j := j + 1
        if j = b.size then (joined i j out, patience)
        else
          let n := placeBefore less a[i]? b j (b.size - j) 0
          let out := out ++ b.extract j (j + n)
          let j := j + n
          if 0 < n && j = b.size then (joined i j out, patience)
          else
            let out := out ++ a.extract i (i + 1)
            let i := i + 1
            if i + 1 = a.size then (crossed i j out, patience)
            else
              let (gait, patience) := gaitAfterLeaps patience m n
              mergeForward a b fuel gait patience i j out

/-- Merges what is left of two runs from the back, before what is merged already. The second run has
at least two elements left. Also yields the patience that is left. -/
def mergeBackward (a b : Array α) : Nat → Gait → Nat → Nat → Nat → Array α → Array α × Nat
  | 0, _, patience, i, j, out => (a.extract 0 i ++ b.extract 0 j ++ out, patience)
  | fuel + 1, gait, patience, i, j, out =>
    let joined (i j : Nat) (out : Array α) : Array α := a.extract 0 i ++ b.extract 0 j ++ out
    let crossed (i j : Nat) (out : Array α) : Array α := b.extract 0 j ++ a.extract 0 i ++ out
    match gait with
    | .walk winsFirst winsSecond =>
      if isLess less b[j - 1]? a[i - 1]? then
        let out := a.extract (i - 1) i ++ out
        if i = 1 then (joined 0 j out, patience)
        else
          let (gait, patience) := gaitAfter patience (winsFirst + 1) (.walk (winsFirst + 1) 0)
          mergeBackward a b fuel gait patience (i - 1) j out
      else
        let out := b.extract (j - 1) j ++ out
        if j = 2 then (crossed i 1 out, patience)
        else
          let (gait, patience) := gaitAfter patience (winsSecond + 1) (.walk 0 (winsSecond + 1))
          mergeBackward a b fuel gait patience i (j - 1) out
    | .leap =>
      let patience := max 1 (patience - 1)
      let k := placeBehind less b[j - 1]? a 0 i (i - 1)
      let m := i - k
      let out := a.extract k i ++ out
      let i := k
      if 0 < m && i = 0 then (joined i j out, patience)
      else
        let out := b.extract (j - 1) j ++ out
        let j := j - 1
        if j = 1 then (crossed i j out, patience)
        else
          let k := placeBefore less a[i - 1]? b 0 j (j - 1)
          let n := j - k
          let out := b.extract k j ++ out
          let j := k
          if 0 < n && j = 1 then (crossed i j out, patience)
          else if 0 < n && j = 0 then (joined i j out, patience)
          else
            let out := a.extract (i - 1) i ++ out
            let i := i - 1
            if i = 0 then (joined i j out, patience)
            else
              let (gait, patience) := gaitAfterLeaps patience m n
              mergeBackward a b fuel gait patience i j out

/-- Merges the middle of two runs, the shorter one set aside: the second one begins with its least
element, and the first one ends with its greatest. -/
def mergeMiddle (a b : Array α) (patience : Nat) : Array α × Nat :=
  let fuel := a.size + b.size
  if a.size ≤ b.size then
    let out := b.extract 0 1
    if b.size = 1 then (out ++ a, patience)
    else if a.size = 1 then (b ++ a, patience)
    else mergeForward less a b fuel (.walk 0 0) patience 0 1 out
  else
    let out := a.extract (a.size - 1) a.size
    if a.size = 1 then (b ++ out, patience)
    else if b.size = 1 then (b ++ a, patience)
    else mergeBackward less a b fuel (.walk 0 0) patience (a.size - 1) b.size out

/-- Merges two runs. What the first one has before the second one, and the second one behind the
first one, stays where it is. -/
def merge (a b : Array α) (patience : Nat) : Array α × Nat :=
  let k := placeBehind less b[0]? a 0 a.size 0
  let late := a.extract k a.size
  if late.size = 0 then (a ++ b, patience)
  else
    let l := placeBefore less late[late.size - 1]? b 0 b.size (b.size - 1)
    if l = 0 then (a ++ b, patience)
    else
      let (middle, patience) := mergeMiddle less late (b.extract 0 l) patience
      (a.extract 0 k ++ middle ++ b.extract l b.size, patience)

/-- The runs that are ordered so far, the latest first, and the patience of merges. -/
structure Runs (α : Type) where
  stack : List (Array α) := []
  patience : Nat := worthwhile

/-- The three latest runs and the three before the latest do not grow too fast backwards. -/
def isBalanced : List (Array α) → Bool
  | z :: y :: x :: rest =>
    y.size + z.size < x.size && (rest.head?.all fun w => x.size + y.size < w.size)
  | _ => true

/-- Merges the latest runs until they are balanced and fall in size, or all of them if they have to
become one. -/
def collapse (all : Bool) : Nat → Runs α → Runs α
  | 0, r => r
  | fuel + 1, r =>
    match r.stack with
    | z :: y :: rest =>
      let unbalanced := !isBalanced r.stack
      if all || unbalanced || y.size ≤ z.size then
        match rest with
        | x :: rest' =>
          if (all || unbalanced) && x.size < z.size then
            let (run, patience) := merge less x y r.patience
            collapse all fuel ⟨z :: run :: rest', patience⟩
          else
            let (run, patience) := merge less y z r.patience
            collapse all fuel ⟨run :: rest, patience⟩
        | [] =>
          let (run, patience) := merge less y z r.patience
          collapse all fuel ⟨[run], patience⟩
      else r
    | _ => r

def addRuns (least : Nat) : Nat → List α → Runs α → Runs α
  | 0, _, r => r
  | fuel + 1, l, r =>
    if l.isEmpty then r
    else
      let (run, size) := frontRun less least l
      addRuns least fuel (l.drop size)
        (collapse less false (r.stack.length + 1) { r with stack := run :: r.stack })

def ranked (l : List α) : List α :=
  let r := addRuns less (leastLength l.length false) l.length l {}
  ((collapse less true r.stack.length r).stack.flatMap Array.toList)

end

end Retrieval.Ranking
