/-
This file says, access by access, what looking for a search thread and for an
account answers, and which world it leaves.
-/

import LightWallet.Login

namespace LightWallet

/-! ### Accesses to the map of search threads -/

theorem find?_filter_ne {threads : List (String × SearchThread)} {name address : String}
    (other : address ≠ name) :
    (threads.filter (·.1 ≠ name)).find? (·.1 = address) = threads.find? (·.1 = address) := by
  rw [List.find?_filter]
  refine congrArg (List.find? · threads) (funext fun entry => ?_)
  by_cases here : entry.1 = address
  · simp [here, other]
  · simp [here]

theorem remaining_find? (world : World) (name : String) {address : String}
    {entry : String × SearchThread}
    (found : (world.remaining name).find? (·.1 = address) = some entry) :
    world.searchingThreads.find? (·.1 = address) = some entry := by
  unfold World.remaining at found
  split at found
  · by_cases here : address = name
    · have kept := List.mem_of_find?_eq_some found
      have named := List.find?_some found
      simp only [List.mem_filter, decide_eq_true_eq, here] at kept named
      exact absurd named kept.2
    · rwa [find?_filter_ne here] at found
  · exact found

theorem visited_of_uncleaned {world : World} {address : String} (uncleaned : world.cleaned = []) :
    world.visited address = world := by
  obtain ⟨db, searchingThreads, throwing, cleaned, moved⟩ := world
  obtain rfl : cleaned = [] := uncleaned
  rfl

theorem thread?_visited_eq_none {world : World} {address : String}
    (absent : world.thread? address = none) : (world.visited address).thread? address = none := by
  unfold World.thread? at absent ⊢
  rw [Option.map_eq_none_iff] at absent ⊢
  cases again : ((world.visited address).remaining address).find? (·.1 = address) with
  | none => rfl
  | some entry =>
    have still : (world.remaining address).find? (·.1 = address) = some entry :=
      remaining_find? (world.visited address) address again
    rw [absent] at still
    cases still

theorem putThread_find? (world : World) (address name : String) (thread : SearchThread) :
    (world.putThread name thread).searchingThreads.find? (·.1 = address) =
      (world.searchingThreads.find? (·.1 = address)).map fun entry =>
        if entry.1 = name then (name, thread) else entry := by
  unfold World.putThread
  rw [List.find?_map]
  refine congrArg (Option.map _) (congrArg (List.find? · world.searchingThreads)
    (funext fun entry => ?_))
  simp only [Function.comp_apply]
  split
  · next here => rw [here]
  · rfl

theorem putThread_thread? (world : World) (address : String) (thread : SearchThread) :
    (world.putThread address thread).thread? address =
      (world.thread? address).map fun _ => thread := by
  have put := putThread_find? world address address thread
  unfold World.thread? World.remaining
  show Option.map _ (List.find? _ (if world.cleaned.headD false then _ else _)) = _
  cases world.cleaned.headD false with
  | true =>
    simp only [if_true]
    rw [List.find?_eq_none.mpr fun entry member => ?_,
      List.find?_eq_none.mpr fun entry member => ?_]
    · rfl
    · simpa using (List.mem_filter.mp member).2
    · simpa using (List.mem_filter.mp member).2
  | false =>
    simp only [Bool.false_eq_true, if_false]
    rw [put, Option.map_map, Option.map_map]
    cases found : world.searchingThreads.find? (·.1 = address) with
    | none => rfl
    | some entry =>
      have named := List.find?_some found
      simp only [decide_eq_true_eq] at named
      simp [named]

theorem query_world {Result : Type} (onThrow : Result) (read : Database → Result)
    (world : World) : (query onThrow read world).2 = world.next := by
  unfold query
  by_cases throws : world.throws = true
  · rw [statement_throws _ _ throws]
  · rw [statement_runs _ _ throws]
    rfl

theorem searchThreadExist_absent {address : String} {world : World}
    (absent : world.thread? address = none) :
    searchThreadExist address world = (false, world.visited address) := by
  unfold searchThreadExist withThread
  rw [absent]

theorem searchThreadExist_found {address : String} {world : World} {thread : SearchThread}
    (live : world.thread? address = some thread) :
    searchThreadExist address world =
      (true, (world.visited address).putThread address thread) := by
  unfold searchThreadExist withThread
  rw [live]

theorem searchThreadExist_live {address : String} {world : World}
    (live : world.thread? address ≠ none) : (searchThreadExist address world).1 = true := by
  obtain ⟨thread, found⟩ := Option.ne_none_iff_exists'.mp live
  unfold searchThreadExist withThread
  rw [found]

theorem getKnownOutputsKeys_absent {address : String} {world : World}
    (absent : world.thread? address = none) :
    getKnownOutputsKeys address world = (none, world.visited address) := by
  unfold getKnownOutputsKeys withThread
  rw [absent]

theorem getKnownOutputsKeys_found {address : String} {world : World} {thread : SearchThread}
    (live : world.thread? address = some thread) :
    getKnownOutputsKeys address world =
      (some thread.known, (world.visited address).putThread address thread) := by
  unfold getKnownOutputsKeys withThread
  rw [live]

/-! ### Finding and creating an account -/

theorem selectAccountRow_throws (address : String) {world : World} (throws : world.throws = true) :
    selectAccountRow address world = (none, world.next) :=
  statement_throws _ _ throws

theorem selectAccountRow_runs (address : String) {world : World}
    (runs : ¬ world.throws = true) :
    selectAccountRow address world = (world.db.selectAccount address, world.next) :=
  statement_runs _ _ runs

theorem selectAccountRow_world (address : String) (world : World) :
    (selectAccountRow address world).2 = world.next := query_world _ _ world

/-- Without a row under the address, the row is read as absent whether or not reading throws. -/
theorem selectAccountRow_absent {address : String} {world : World}
    (absent : world.db.selectAccount address = none) :
    selectAccountRow address world = (none, world.next) := by
  by_cases throws : world.throws = true
  · exact selectAccountRow_throws address throws
  · rw [selectAccountRow_runs address throws, absent]

theorem selectAccount_eq_none_iff {db : Database} {address : String} :
    db.selectAccount address = none ↔ ∀ account ∈ db.accounts, account.address ≠ address := by
  unfold Database.selectAccount
  simp [List.find?_eq_none]

theorem createAccount_inserts (backend : Backend) {address : String} (viewKey : String)
    (generatedLocally : Bool) {world : World} (absent : world.db.selectAccount address = none)
    (runs : ¬ world.next.throws = true) :
    ∃ acc, (createAccount backend address viewKey generatedLocally world).1 = some acc ∧
      (createAccount backend address viewKey generatedLocally world).2.db.selectAccount address ≠
        none := by
  have fresh : ∀ account ∈ world.db.accounts, account.address ≠ address :=
    selectAccount_eq_none_iff.mp absent
  obtain ⟨pair, inserted⟩ : ∃ pair, world.next.db.insertAccount
      (newAccount backend address viewKey generatedLocally) = some pair := by
    exact ⟨_, if_pos (List.all_eq_true.mpr fun account member =>
      decide_eq_true (fresh account member))⟩
  unfold createAccount
  rw [Handler.bind_apply, selectAccountRow_absent absent]
  simp only [Handler.bind_apply, insertAccount]
  rw [insertRow_inserts runs inserted]
  refine ⟨_, rfl, fun none => ?_⟩
  obtain ⟨-, -, after⟩ := Database.insertAccount_eq inserted
  refine selectAccount_eq_none_iff.mp none
    { newAccount backend address viewKey generatedLocally with
      id := world.next.db.nextAccount, viewkey := "" } ?_ rfl
  show _ ∈ pair.2.accounts
  rw [after]
  exact List.mem_append_right _ (List.mem_singleton_self _)

/-- An insertion that throws, or finds the address taken, changes nothing. -/
theorem createAccount_refused (backend : Backend) {address : String} (viewKey : String)
    (generatedLocally : Bool) {world : World}
    (unread : (selectAccountRow address world).1 = none)
    (refused : world.next.throws = true ∨ world.db.selectAccount address ≠ none) :
    createAccount backend address viewKey generatedLocally world = (none, world.next.next) := by
  unfold createAccount
  rw [Handler.bind_apply, unread, selectAccountRow_world]
  simp only [Handler.bind_apply, insertAccount]
  rw [insertRow_refused]
  · rfl
  · refine refused.imp id fun taken => if_neg fun accepts => taken ?_
    exact selectAccount_eq_none_iff.mpr fun account member =>
      of_decide_eq_true (List.all_eq_true.mp accepts account member)

theorem createAccount_reads (backend : Backend) {address : String} (viewKey : String)
    (generatedLocally : Bool) {world : World} {row : XmrAccount}
    (read : (selectAccountRow address world).1 = some row) :
    createAccount backend address viewKey generatedLocally world = (some row, world.next) := by
  unfold createAccount
  rw [Handler.bind_apply, read, selectAccountRow_world]
  rfl

theorem selectAccount_reads (backend : Backend) {address : String} (viewKey : String)
    (createIfNotfound : Bool) {world : World} {row : XmrAccount}
    (read : (selectAccountRow address world).1 = some row) :
    selectAccount backend address viewKey createIfNotfound world =
      (checkViewkey backend viewKey row, world.next) := by
  unfold selectAccount
  rw [Handler.bind_apply, read, selectAccountRow_world]
  rfl

theorem selectAccount_uncreated (backend : Backend) {address viewKey : String} {world : World}
    (unread : (selectAccountRow address world).1 = none)
    (uncreated : (createAccount backend address viewKey true world.next).1 = none) :
    selectAccount backend address viewKey true world =
      (none, (createAccount backend address viewKey true world.next).2) := by
  unfold selectAccount
  rw [Handler.bind_apply, unread, selectAccountRow_world]
  simp only [if_true, Handler.bind_apply]
  rw [uncreated]
  rfl

theorem selectAccount_created (backend : Backend) {address viewKey : String} {world : World}
    {acc : XmrAccount} (unread : (selectAccountRow address world).1 = none)
    (created : (createAccount backend address viewKey true world.next).1 = some acc) :
    (selectAccount backend address viewKey true world).2 =
      (makeSearchThread backend acc
        (createAccount backend address viewKey true world.next).2).2 := by
  unfold selectAccount
  rw [Handler.bind_apply, unread, selectAccountRow_world]
  simp only [if_true, Handler.bind_apply]
  rw [created]
  simp only [Handler.bind_apply]
  split <;> rfl

end LightWallet
