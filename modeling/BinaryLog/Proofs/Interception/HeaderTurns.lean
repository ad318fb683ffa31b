import BinaryLog.Proofs.Interception.Pass

/-!
# Response headers, level by level

A callback with response headers passes the levels of a listener one after another, and each has its
`Turn`: a write that returns ok, a write that fails, or no write. `Turn.Shown` says what the turns
of one callback leave in its trace, and `Turn.LogOnce` how the turns of one level go on from
callback to callback: failing writes, then one that returns ok, then none.

* `ClientListener.turns_shown`: the turns of a callback that is a pass with so many writes that
  return ok.
* `ClientListener.turns_column`: how a turn follows from what the level has logged before.
* `Turn.Column.logOnce`: so a level logs once.
-/

namespace BinaryLog

/-- What a level of a listener does in a callback with response headers. -/
inductive Turn where
  /-- The callback does not come to it. -/
  | unreached
  /-- It passes the headers on without a write. -/
  | passed
  /-- Its write returns ok, and it passes the headers on. -/
  | logged
  /-- Its write fails, and that is the end of the callback. -/
  | refused
  deriving DecidableEq, Repr

namespace Turn

/-- What happens in the turn of a level that has `e` to log. -/
def happenings (e : Entry) : Turn → List Happening
  | unreached | passed => []
  | logged => [.logged e]
  | refused => [.refused e]

/-- The turns of one callback: levels pass the headers on until a write fails, and after that no
level is reached. -/
def InOrder : List Turn → Prop
  | [] => True
  | passed :: turns | logged :: turns => InOrder turns
  | refused :: turns => ∀ turn ∈ turns, turn = unreached
  | unreached :: _ => False

/-- A callback with response headers in which the levels take these turns leaves this trace: each
level that logs hands over these headers, and unless a write fails the listener is reached. -/
def Shown (levels : List Tap) (headers : Metadata) (turns : List Turn) (trace : List Happening) :
    Prop :=
  turns.length = levels.length ∧ InOrder turns ∧ ∃ peer, milestones trace =
    (List.zipWith (fun tap => happenings (tap.entry .client (.receivedHeaders headers peer)))
      levels turns).flatten ++
    if refused ∈ turns then [] else [.reached (.operation (.onHeaders headers))]

/-- The turns of the level at a place, the innermost level at place zero, in callback after
callback. -/
def column (i : Nat) (history : List (List Turn)) : List Turn := history.filterMap (·[i]?)

theorem column_cons {i : Nat} {turns : List Turn} {turn : Turn} (h : turns[i]? = some turn)
    (history : List (List Turn)) : column i (turns :: history) = turn :: column i history :=
  List.filterMap_cons_some h

/-- The turns of one level in callback after callback: whenever it is reached its write fails, up to
one time when it returns ok; from then on it makes no write. -/
def LogOnce (turns : List Turn) : Prop :=
  ∃ failures, turns.filter (· ≠ unreached) = List.replicate failures refused ∨
    ∃ later, turns.filter (· ≠ unreached) =
      List.replicate failures refused ++ logged :: List.replicate later passed

/-- The turns that a level may take in callback after callback; `saw` says whether it has logged
headers before. -/
inductive Column : Bool → List Turn → Prop
  | nil {saw : Bool} : Column saw []
  | unreached {saw : Bool} {turns : List Turn} : Column saw turns → Column saw (.unreached :: turns)
  | passed {turns : List Turn} : Column true turns → Column true (.passed :: turns)
  | logged {turns : List Turn} : Column true turns → Column false (.logged :: turns)
  | refused {turns : List Turn} : Column false turns → Column false (.refused :: turns)

theorem Column.passed_only {turns : List Turn} (h : Column true turns) :
    ∃ later, turns.filter (· ≠ .unreached) = List.replicate later .passed := by
  generalize hsaw : true = saw at h
  induction h with
  | nil => exact ⟨0, rfl⟩
  | unreached _ ih => simpa using ih hsaw
  | passed _ ih =>
    obtain ⟨later, heq⟩ := ih rfl
    exact ⟨later + 1, by simpa [List.replicate_succ] using heq⟩
  | logged | refused => cases hsaw

/-- A level that has not logged logs once. -/
theorem Column.logOnce {turns : List Turn} (h : Column false turns) : LogOnce turns := by
  generalize hsaw : false = saw at h
  induction h with
  | nil => exact ⟨0, .inl rfl⟩
  | unreached _ ih => simpa [LogOnce] using ih hsaw
  | passed => cases hsaw
  | logged h =>
    obtain ⟨later, heq⟩ := h.passed_only
    exact ⟨0, .inr ⟨later, by simpa using heq⟩⟩
  | refused _ ih =>
    obtain ⟨failures, heq⟩ := ih rfl
    exact ⟨failures + 1, by simpa [List.replicate_succ] using heq⟩

end Turn

namespace ClientListener

open Turn

/-- The turns of the levels in a callback in which `n` writes return ok. -/
def turns : Nat → ClientListener → List Turn
  | _, [] => []
  | n, level :: l =>
    if level.sawHeaders then .passed :: turns n l
    else
      match n with
      | 0 => .refused :: l.map fun _ => .unreached
      | n + 1 => .logged :: turns n l

@[simp] theorem turns_cons_of_saw {level : ListenerTap} (h : level.sawHeaders = true) (n : Nat)
    (l : ClientListener) : turns n (level :: l) = .passed :: turns n l := by
  simp [turns, h]

@[simp] theorem turns_zero_cons {level : ListenerTap} (h : level.sawHeaders = false)
    (l : ClientListener) : turns 0 (level :: l) = .refused :: l.map fun _ => .unreached := by
  simp [turns, h]

@[simp] theorem turns_succ_cons {level : ListenerTap} (h : level.sawHeaders = false) (n : Nat)
    (l : ClientListener) : turns (n + 1) (level :: l) = .logged :: turns n l := by
  simp [turns, h]

theorem pending_cons_of_saw {level : ListenerTap} (h : level.sawHeaders = true)
    (l : ClientListener) : pending (level :: l) = l.pending := by
  simp [pending, h]

theorem pending_cons_of_not_saw {level : ListenerTap} (h : level.sawHeaders = false)
    (l : ClientListener) : pending (level :: l) = level.tap :: l.pending := by
  simp [pending, h]

theorem length_turns (n : Nat) (l : ClientListener) : (l.turns n).length = l.taps.length := by
  fun_induction turns n l with
  | case1 => rfl
  | case2 n level l hsaw ih => simpa [taps] using ih
  | case3 => simp [taps]
  | case4 level l hsaw n ih => simpa [taps] using ih

theorem inOrder_turns (n : Nat) (l : ClientListener) : InOrder (l.turns n) := by
  fun_induction turns n l with
  | case1 => trivial
  | case2 n level l hsaw ih => exact ih
  | case3 => simp [InOrder]
  | case4 level l hsaw n ih => exact ih

theorem refused_mem_turns (n : Nat) (l : ClientListener) :
    .refused ∈ l.turns n ↔ n < l.pending.length := by
  fun_induction turns n l with
  | case1 => simp [pending]
  | case2 n level l hsaw ih => simpa [pending_cons_of_saw hsaw] using ih
  | case3 level l hsaw => simp [pending_cons_of_not_saw (Bool.eq_false_iff.2 hsaw)]
  | case4 level l hsaw n ih => simpa [pending_cons_of_not_saw (Bool.eq_false_iff.2 hsaw)] using ih

theorem happenings_unreached (entry : Tap → Entry) (l : ClientListener) :
    (List.zipWith (fun tap => happenings (entry tap)) l.taps
      (l.map fun _ => .unreached)).flatten = [] := by
  induction l with
  | nil => rfl
  | cons level l ih => exact ih

/-- The turns are what happens to the entries of the levels that have not logged yet. -/
theorem happenings_turns (entry : Tap → Entry) (n : Nat) (l : ClientListener) :
    (List.zipWith (fun tap => happenings (entry tap)) l.taps (l.turns n)).flatten =
      ((l.pending.map entry).take n).map .logged ++
        ((l.pending.map entry)[n]?).toList.map .refused := by
  fun_induction turns n l with
  | case1 => simp [taps, pending]
  | case2 n level l hsaw ih => simpa [taps, happenings, pending_cons_of_saw hsaw] using ih
  | case3 level l hsaw =>
    rw [pending_cons_of_not_saw (Bool.eq_false_iff.2 hsaw)]
    exact congrArg (.refused (entry level.tap) :: ·) (happenings_unreached entry l)
  | case4 level l hsaw n ih =>
    simpa [taps, happenings, pending_cons_of_not_saw (Bool.eq_false_iff.2 hsaw)] using ih

/-- **What a callback leaves in its trace are the turns of the levels.** -/
theorem turns_shown {l : ClientListener} {peer : PeerAddress} {headers : Metadata}
    {w w' : Surroundings} {n : Nat} {result : Except Error Unit}
    (hp : Pass (l.pending.map (·.entry .client (.receivedHeaders headers peer)))
      (.operation (.onHeaders headers)) w n result w') (hw : w.trace = []) :
    Shown l.taps headers (l.turns n) w'.trace := by
  refine ⟨l.length_turns n, l.inOrder_turns n, peer, ?_⟩
  rw [happenings_turns]
  cases hp with
  | forwarded _ _ htrace =>
    have hmem : .refused ∉ l.turns l.pending.length := by simp [refused_mem_turns]
    rw [List.take_length, htrace, hw, List.length_map, if_neg hmem]
    simp [milestones]
  | stopped he _ _ htrace =>
    have hmem : .refused ∈ l.turns n := by
      simpa [refused_mem_turns] using (List.getElem?_eq_some_iff.1 he).1
    rw [htrace, hw, he, if_pos hmem]
    simp [milestones]

theorem marked_succ_cons {level : ListenerTap} (h : level.sawHeaders = false) (n : Nat)
    (l : ClientListener) :
    marked (n + 1) (level :: l) = { level with sawHeaders := true } :: marked n l := by
  simp [marked, h]

/-- How the turn of a level follows from what it has logged before, and what it leads to. -/
theorem turns_column (n : Nat) {l : ClientListener} {i : Nat} {level : ListenerTap}
    (h : l[i]? = some level) :
    ∃ level', (l.marked n)[i]? = some level' ∧ ∃ turn, (l.turns n)[i]? = some turn ∧
      ∀ {turns}, Column level'.sawHeaders turns → Column level.sawHeaders (turn :: turns) := by
  induction l generalizing n i with
  | nil => simp at h
  | cons first l ih =>
    cases hsaw : first.sawHeaders with
    | true =>
      rw [marked_cons_of_saw hsaw, turns_cons_of_saw hsaw]
      cases i with
      | zero =>
        obtain rfl : first = level := by simpa using h
        exact ⟨first, rfl, .passed, rfl, fun hcol => by rw [hsaw] at hcol ⊢; exact hcol.passed⟩
      | succ i => simpa using ih n (by simpa using h)
    | false =>
      cases n with
      | zero =>
        rw [marked_zero, turns_zero_cons hsaw]
        cases i with
        | zero =>
          obtain rfl : first = level := by simpa using h
          exact ⟨first, rfl, .refused, rfl, fun hcol => by rw [hsaw] at hcol ⊢; exact hcol.refused⟩
        | succ i =>
          have hl : l[i]? = some level := by simpa using h
          refine ⟨level, by simpa using hl, .unreached, ?_, .unreached⟩
          rw [List.getElem?_cons_succ, List.getElem?_map, hl, Option.map_some]
      | succ n =>
        rw [marked_succ_cons hsaw, turns_succ_cons hsaw]
        cases i with
        | zero =>
          obtain rfl : first = level := by simpa using h
          exact ⟨_, rfl, .logged, rfl, fun hcol => by rw [hsaw]; exact hcol.logged⟩
        | succ i => simpa using ih n (by simpa using h)

end ClientListener

end BinaryLog
