/-
This file settles which view key a ping accepts.

The view key of a search thread is rendered into a variable of the function, which
all threads share and which keeps what was rendered first. From then on every
thread is compared with the key of the first one that was asked.
-/

import LightWallet.Runs

namespace LightWallet.ViewKeys

/-! ### Threads and their keys -/

/-- The map of search threads with the keys they were created with, and the variable of
`get_viewkey`. `asked` is not the code's: the keys of the threads that were asked, the latest
first. -/
structure State (Key : Type) where
  searchingThreads : List (String × Key) := []
  viewkey : Option String := none
  asked : List Key := []

namespace State

variable {Key : Type}

/-- The key of the search thread of an address. -/
def thread? (state : State Key) (address : String) : Option Key :=
  (state.searchingThreads.find? (·.1 = address)).map (·.2)

/-- `clean_search_thread_map` erases the threads of some addresses. -/
def erase (state : State Key) (addresses : List String) : State Key :=
  { state with searchingThreads := state.searchingThreads.filter (·.1 ∉ addresses) }

end State

section Process

variable {Key : Type} (podToHex : Key → String)

/-- `TxSearch::get_viewkey`: the variable is initialised by the first call, of whichever
thread. -/
def getViewkey (key : Key) (viewkey : Option String) : String :=
  viewkey.getD (podToHex key)

/-- `search_thread_exist` with a view key. -/
def searchThreadExist (address viewkey : String) (state : State Key) : Bool × State Key :=
  match state.thread? address with
  | none => (false, state)
  | some key =>
    (getViewkey podToHex key state.viewkey = viewkey,
      { state with
        viewkey := some (getViewkey podToHex key state.viewkey)
        asked := key :: state.asked })

/-- `start_tx_search_thread`: a thread that exists is left as it is. -/
def startTxSearchThread (address : String) (key : Key) (state : State Key) : State Key :=
  match state.thread? address with
  | some _ => state
  | none => { state with searchingThreads := state.searchingThreads ++ [(address, key)] }

/-- `ping`, on a request that parses: whether it succeeds. The thread may be erased between its
two accesses to the map. -/
def ping (address viewkey : String) (erased : Bool) (state : State Key) : Bool × State Key :=
  let (exist, state) := searchThreadExist podToHex address viewkey state
  let state := if erased then state.erase [address] else state
  (exist && (state.thread? address).isSome, state)

/-- `start` is what a login does. -/
inductive Event (Key : Type) where
  | start (address : String) (key : Key)
  | exist (address viewkey : String)
  | ping (address viewkey : String) (erased : Bool)
  | clean (addresses : List String)
  deriving DecidableEq, Repr

/-- What an event does to the map and to the static key. -/
def step (state : State Key) : Event Key → State Key
  | .start address key => startTxSearchThread address key state
  | .exist address viewkey => (searchThreadExist podToHex address viewkey state).2
  | .ping address viewkey erased => (ping podToHex address viewkey erased state).2
  | .clean addresses => state.erase addresses

/-! ### Right answers -/

/-- The address has a search thread, which was created with this key. -/
def HasKey (state : State Key) (address viewkey : String) : Prop :=
  (state.thread? address).map podToHex = some viewkey

instance (state : State Key) (address viewkey : String) :
    Decidable (HasKey podToHex state address viewkey) :=
  inferInstanceAs (Decidable (_ = _))

/-- The lookup is true exactly of the key of the thread, and a ping is accepted exactly with it,
if the thread is still there. -/
def AnswersRight (state : State Key) : Event Key → Prop
  | .exist address viewkey =>
    (searchThreadExist podToHex address viewkey state).1 = true ↔
      HasKey podToHex state address viewkey
  | .ping address viewkey erased =>
    (ping podToHex address viewkey erased state).1 = true ↔
      HasKey podToHex state address viewkey ∧ erased = false
  | _ => True

/-- The key of the request is that of both the thread and the first thread that was asked, or of
neither. -/
def AskedLikeFirst (state : State Key) (address viewkey : String) : Prop :=
  ∀ key ∈ state.thread? address, ∀ first ∈ state.asked.getLast?,
    podToHex first = viewkey ↔ podToHex key = viewkey

/-- The condition on an event; a thread that is erased in between is not asked. -/
def LikeFirst (state : State Key) : Event Key → Prop
  | .exist address viewkey => AskedLikeFirst podToHex state address viewkey
  | .ping address viewkey erased =>
    erased = false → AskedLikeFirst podToHex state address viewkey
  | _ => True

instance (state : State Key) : ∀ event, Decidable (AnswersRight podToHex state event)
  | .exist _ _ => inferInstanceAs (Decidable (_ ↔ _))
  | .ping _ _ _ => inferInstanceAs (Decidable (_ ↔ _))
  | .start _ _ => inferInstanceAs (Decidable True)
  | .clean _ => inferInstanceAs (Decidable True)

/-! ### The first thread that was asked -/

/-- The variable holds the key of the first thread that was asked. -/
def HoldsFirst (state : State Key) : Prop :=
  state.viewkey = state.asked.getLast?.map podToHex

variable {podToHex}

theorem searchThreadExist_holdsFirst {state : State Key} (holds : HoldsFirst podToHex state)
    (address viewkey : String) :
    HoldsFirst podToHex (searchThreadExist podToHex address viewkey state).2 := by
  unfold searchThreadExist
  cases state.thread? address with
  | none => exact holds
  | some key =>
    show some (state.viewkey.getD (podToHex key)) = (key :: state.asked).getLast?.map podToHex
    rw [holds]
    cases asked : state.asked with
    | nil => rfl
    | cons latest earlier =>
      rw [List.getLast?_cons_cons]
      cases last : (latest :: earlier).getLast? with
      | none => exact absurd (List.getLast?_eq_none_iff.mp last) (List.cons_ne_nil _ _)
      | some first => rfl

theorem holdsFirst_step {state : State Key} (holds : HoldsFirst podToHex state)
    (event : Event Key) : HoldsFirst podToHex (step podToHex state event) := by
  cases event with
  | start address key =>
    show HoldsFirst podToHex (startTxSearchThread address key state)
    unfold startTxSearchThread
    split <;> exact holds
  | exist address viewkey => exact searchThreadExist_holdsFirst holds address viewkey
  | ping address viewkey erased =>
    have kept := searchThreadExist_holdsFirst holds address viewkey
    cases erased <;> exact kept
  | clean addresses => exact holds

/-! ### What the lookup answers -/

theorem searchThreadExist_right_iff {state : State Key} (holds : HoldsFirst podToHex state)
    (address viewkey : String) :
    ((searchThreadExist podToHex address viewkey state).1 = true ↔
        HasKey podToHex state address viewkey) ↔
      AskedLikeFirst podToHex state address viewkey := by
  unfold searchThreadExist HasKey AskedLikeFirst
  cases thread : state.thread? address with
  | none => simp
  | some key =>
    have rendered : getViewkey podToHex key state.viewkey =
        (state.asked.getLast?.map podToHex).getD (podToHex key) := by
      unfold getViewkey
      rw [show state.viewkey = _ from holds]
    simp only [rendered]
    cases state.asked.getLast? <;> simp

theorem searchThreadExist_thread? (state : State Key) (address viewkey other : String) :
    (searchThreadExist podToHex address viewkey state).2.thread? other = state.thread? other := by
  unfold searchThreadExist
  split <;> rfl

theorem searchThreadExist_found {state : State Key} {address viewkey : String}
    (exist : (searchThreadExist podToHex address viewkey state).1 = true) :
    (state.thread? address).isSome = true := by
  unfold searchThreadExist at exist
  cases thread : state.thread? address with
  | none =>
    rw [thread] at exist
    cases exist
  | some key => rfl

theorem erase_thread? (state : State Key) (address : String) :
    (state.erase [address]).thread? address = none := by
  unfold State.thread? State.erase
  rw [Option.map_eq_none_iff, List.find?_eq_none]
  intro entry member same
  have kept := (List.mem_filter.mp member).2
  simp only [List.mem_singleton, decide_eq_true_eq] at kept same
  exact kept same

/-- A ping that the thread survives is accepted exactly if the lookup is true. -/
theorem ping_iff (state : State Key) (address viewkey : String) (erased : Bool) :
    (ping podToHex address viewkey erased state).1 = true ↔
      (searchThreadExist podToHex address viewkey state).1 = true ∧ erased = false := by
  unfold ping
  cases erased with
  | true =>
    simp only [if_true, erase_thread?, Option.isSome_none, Bool.and_false, Bool.false_eq_true,
      reduceCtorEq, and_false]
  | false =>
    simp only [Bool.false_eq_true, if_false, searchThreadExist_thread?, Bool.and_eq_true,
      and_true, and_iff_left_iff_imp]
    exact searchThreadExist_found

theorem answersRight_iff {state : State Key} (holds : HoldsFirst podToHex state)
    (event : Event Key) : AnswersRight podToHex state event ↔ LikeFirst podToHex state event := by
  cases event with
  | start address key => exact Iff.rfl
  | exist address viewkey => exact searchThreadExist_right_iff holds address viewkey
  | ping address viewkey erased =>
    show (_ ↔ _) ↔ (_ → _)
    rw [ping_iff]
    cases erased with
    | true => simp
    | false =>
      simp only [and_true, forall_const]
      exact searchThreadExist_right_iff holds address viewkey
  | clean addresses => exact Iff.rfl

end Process

/-- In every run, all answers are right exactly if every call that finds a thread names a key that
is also the first asked thread's, or neither's. -/
theorem answers_right_iff {Key : Type} (podToHex : Key → String) (events : List (Event Key)) :
    Runs.Along (step podToHex) (AnswersRight podToHex) {} events ↔
      Runs.Along (step podToHex) (LikeFirst podToHex) {} events :=
  Runs.along_congr (step podToHex) (AnswersRight podToHex) (LikeFirst podToHex)
    (HoldsFirst podToHex) (fun _ event holds => ⟨holdsFirst_step holds event,
      answersRight_iff holds event⟩) events {} rfl

/-! ### Two accounts -/

/-- The key of the second account is refused after the first account was pinged, and the first
account's key is accepted for the second. -/
theorem wrong_key_accepted :
    ¬ Runs.Along (step id) (AnswersRight id) {}
        [.start "4ApA" "a1", .start "4BpB" "b2", .ping "4ApA" "a1" false,
          .ping "4BpB" "b2" false] ∧
      ¬ Runs.Along (step id) (AnswersRight id) {}
        [.start "4ApA" "a1", .start "4BpB" "b2", .ping "4ApA" "a1" false,
          .ping "4BpB" "a1" false] := by
  decide +kernel

end LightWallet.ViewKeys
