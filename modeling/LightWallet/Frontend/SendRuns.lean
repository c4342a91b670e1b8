/-
This file proves that every run of the page that sends coins follows the protocol of its
submissions, and what follows for the page.

Callbacks, the dialog and the task of the core exclude one another, so that no dialog is
asked for while one is shown. A submission of a form without an address throws, and the
page stays locked. The amount that is sent counts units of the core, which are not the
units in which the page adds up the form.
-/

import LightWallet.Frontend.SendProtocol

namespace LightWallet.Frontend.SendCoins

open CnUtil AccountService Traces

/-! ### What stands for a phase -/

/-- The tasks that the core works on and has callbacks for. -/
def World.live (world : World) : List (Nat × Task) :=
  world.handlers.filter fun handler => handler.1 ∈ world.taken

/-- The page is submitting in all phases but one. -/
def Phase.submitting : Phase → Bool
  | .idle => false
  | _ => true

/-- The dialog that the page shows. -/
def Phase.dialog : Phase → Option Dialog
  | .asking _ dialog => some dialog
  | _ => none

/-- A submission of the payment identifier, of a part of the balance. -/
def Submission.Of (submission : Submission) (paymentId : Option JsString) : Prop :=
  submission.paymentId = paymentId ∧ submission.sweeping = false

/-- The callbacks that wait. -/
def Phase.Waits (pending : List Pending) : Phase → Prop
  | .requested paymentId => ∃ targets, pending = [.ready targets paymentId]
  | .looking paymentId domain => ∃ submission : Submission,
      pending = [.records submission domain] ∧ submission.Of paymentId
  | .asking paymentId dialog => pending = [] ∧ dialog.submission.Of paymentId
  | .agreed paymentId dialog =>
    pending = [.confirmed dialog.submission dialog.address dialog.domain] ∧
      dialog.submission.Of paymentId
  | .declined => pending = [.canceled]
  | _ => pending = []

/-- The tasks that the core works on. -/
def Phase.Works (live : List (Nat × Task)) : Phase → Prop
  | .sending args domain => ∃ number task, live = [(number, task)] ∧
      task.toAddress = args.toAddress ∧ task.domain = domain
  | _ => live = []

/-- Tasks are numbered by what the page has done, requests are open for tasks that the core has
taken, and the form has one target at most and never sends all. -/
structure Sound (world : World) : Prop where
  handlers : ∀ handler ∈ world.handlers, handler.1 < world.log.length
  taken : ∀ number ∈ world.taken, number < world.log.length
  requests : ∀ request ∈ world.requests, request.1 ∈ world.taken
  parts : ∀ target ∈ world.memory.targets, target.sendAll = false
  single : ∀ array ∈ world.memory.arrays, array.length ≤ 1

/-- The page stands where the phase says. -/
structure Stands (phase : Phase) (world : World) : Prop where
  submitting : world.scope.submitting = phase.submitting
  dialog : world.scope.openaliasDialog = phase.dialog
  waits : phase.Waits world.pending
  works : phase.Works world.live
  sound : Sound world

/-- The phase follows one step of the page. -/
abbrev Simulates (core : Core) (phase : Phase) (world after : World) : Prop :=
  Simulated (Next core) World.log Stands phase world after

theorem stands_start : Stands .idle {} :=
  ⟨rfl, rfl, rfl, rfl, by constructor <;> simp⟩

theorem Sound.target {world : World} (sound : Sound world) (reference : Nat) :
    (world.memory.target reference).sendAll = false := by
  unfold Memory.target
  rw [List.getD_eq_getElem?_getD]
  cases found : world.memory.targets[reference]? with
  | none => rfl
  | some target => exact sound.parts target (List.mem_of_getElem? found)

theorem Sound.array {world : World} (sound : Sound world) (reference : Nat) :
    (world.memory.array reference).length ≤ 1 := by
  unfold Memory.array
  rw [List.getD_eq_getElem?_getD]
  cases found : world.memory.arrays[reference]? with
  | none => exact Nat.zero_le 1
  | some array => exact sound.single array (List.mem_of_getElem? found)

/-- A step that changes nothing a phase speaks of. -/
theorem Simulates.stay {core : Core} {phase : Phase} {world after : World}
    (stands : Stands phase after) (same : after.log = world.log) :
    Simulates core phase world after :=
  ⟨[], phase, by rw [same, List.append_nil], .start, stands⟩

theorem Simulates.step {core : Core} {phase reached : Phase} {world after : World}
    {entry : Entry} (allowed : Next core phase [entry] reached)
    (told : after.log = world.log ++ [entry]) (stands : Stands reached after) :
    Simulates core phase world after :=
  ⟨[entry], reached, told, Trace.one allowed, stands⟩

/-! ### What keeps a world sound -/

theorem Sound.change {world after : World} (sound : Sound world)
    (handlers : after.handlers ⊆ world.handlers) (taken : after.taken = world.taken)
    (requests : after.requests ⊆ world.requests) (memory : after.memory = world.memory)
    (log : world.log.length ≤ after.log.length) : Sound after where
  handlers := fun handler member => (sound.handlers handler (handlers member)).trans_le log
  taken := fun number member =>
    (sound.taken number (taken ▸ member)).trans_le log
  requests := fun request member => taken ▸ sound.requests request (requests member)
  parts := memory ▸ sound.parts
  single := memory ▸ sound.single

theorem Sound.fail {world : World} (sound : Sound world) (error : JsString) :
    Sound (world.fail error) :=
  sound.change (List.Subset.refl _) rfl (List.Subset.refl _) rfl (by simp [World.fail])

theorem Sound.resetTargets {world : World} (sound : Sound world) : Sound world.resetTargets where
  handlers := sound.handlers
  taken := sound.taken
  requests := sound.requests
  parts := by
    intro target member
    rcases List.mem_append.mp member with old | new
    · exact sound.parts target old
    · rw [List.mem_singleton.mp new]
  single := by
    intro array member
    rcases List.mem_append.mp member with old | new
    · exact sound.single array old
    · rw [List.mem_singleton.mp new, List.length_singleton]

theorem Sound.forget {world : World} (sound : Sound world) (number : Nat) :
    Sound (world.forget number) :=
  sound.change List.filter_sublist.subset rfl (List.Subset.refl _) rfl le_rfl

theorem live_forget (world : World) (number : Nat) :
    (world.forget number).live = world.live.filter fun handler => handler.1 ≠ number := by
  unfold World.live World.forget
  rw [List.filter_filter, List.filter_filter]
  refine List.filter_congr fun handler _ => ?_
  rw [Bool.and_comm]

/-- A submission that fails leaves no callback behind. -/
theorem stands_fail {world : World} (quiet : Stands .locked world) (error : JsString) :
    Stands .idle (world.fail error) :=
  ⟨rfl, quiet.dialog, quiet.waits, quiet.works, quiet.sound.fail error⟩

/-! ### Calls of the core -/

section

variable {core : Core} {world : World}

/-- What the call of the core makes of a page that waits for nothing else. -/
theorem sendFunds_simulated {phase : Phase} (quiet : Stands .locked world) {target : Target}
    {args : SendArgs} {task : Task} (receiver : task.toAddress = args.toAddress)
    (allowed : Next core phase [.sent target args] (.sending args task.domain)) (reply : Reply) :
    Simulates core phase world (sendFunds world target args task reply) := by
  have fresh : ∀ handler ∈ world.handlers, handler.1 ≠ world.log.length :=
    fun handler member => (quiet.sound.handlers handler member).ne
  have untaken : world.log.length ∉ world.taken :=
    fun member => absurd (quiet.sound.taken _ member) (lt_irrefl _)
  have others : (world.handlers.filter fun handler =>
      handler.1 ∈ world.log.length :: world.taken) = [] := by
    rw [← show world.live = [] from quiet.works]
    refine List.filter_congr fun handler member => ?_
    simp only [List.mem_cons, fresh handler member, false_or]
  have forgotten : (((world.log.length, task) :: world.handlers).filter fun handler =>
      handler.1 ≠ world.log.length) = world.handlers := by
    rw [List.filter_cons_of_neg (by simp)]
    exact List.filter_eq_self.mpr fun handler member => decide_eq_true (fresh handler member)
  have grown {after : World}
      (handlers : after.handlers ⊆ (world.log.length, task) :: world.handlers)
      (taken : after.taken ⊆ world.log.length :: world.taken)
      (kept : world.taken ⊆ after.taken) (requests : after.requests = world.requests)
      (memory : after.memory = world.memory) (log : world.log.length < after.log.length) :
      Sound after := by
    refine ⟨fun handler member => ?_, fun number member => ?_, fun request member => ?_,
      memory ▸ quiet.sound.parts, memory ▸ quiet.sound.single⟩
    · rcases List.mem_cons.mp (handlers member) with rfl | old
      · exact log
      · exact (quiet.sound.handlers handler old).trans log
    · rcases List.mem_cons.mp (taken member) with rfl | old
      · exact log
      · exact (quiet.sound.taken number old).trans log
    · exact kept (quiet.sound.requests request (requests ▸ member))
  have taking : Stands (.sending args task.domain)
      { world with
        handlers := (world.log.length, task) :: world.handlers
        log := world.log ++ [.sent target args]
        taken := world.log.length :: world.taken } := by
    refine ⟨quiet.submitting, quiet.dialog, quiet.waits,
      ⟨world.log.length, task, ?_, receiver, rfl⟩,
      grown (List.Subset.refl _) (List.Subset.refl _) (List.subset_cons_self _ _) rfl rfl (by simp)⟩
    unfold World.live
    rw [List.filter_cons_of_pos (by simp), others]
  unfold sendFunds
  cases reply with
  | taken => exact Simulates.step allowed rfl taking
  | refused message =>
    by_cases empty : message = []
    · simp only [if_pos empty]
      exact Simulates.step allowed rfl taking
    · simp only [if_neg empty]
      refine ⟨[.sent target args, .failed message], .idle, ?_,
        (Trace.one allowed).step (.fail _ _ trivial), rfl, quiet.dialog, quiet.waits, ?_, ?_⟩
      · simp [World.fail, World.forget]
      · show World.live _ = []
        simp only [World.live, World.forget, World.fail]
        rw [forgotten]
        exact others
      · exact grown List.filter_sublist.subset (List.Subset.refl _) (List.subset_cons_self _ _) rfl
          rfl (by simp [World.fail, World.forget])
  | thrown error =>
    refine ⟨[.sent target args, .failed (.ofString "Failed to send with exception: " ++ error)],
      .idle, by simp [World.fail], (Trace.one allowed).step (.fail _ _ trivial), rfl, quiet.dialog,
      quiet.waits, ?_, ?_⟩
    · show World.live _ = []
      simp only [World.live, World.fail]
      rw [List.filter_cons_of_neg (by simp [untaken])]
      exact quiet.works
    · exact grown (List.Subset.refl _) (List.subset_cons_self _ _) (List.Subset.refl _) rfl rfl
        (by simp [World.fail])

/-- A page that waits for nothing else sends what the protocol lets it, or the submission fails. -/
theorem sendTo_simulated (phase : Phase) (quiet : Stands .locked world)
    (running : phase.Running) {submission : Submission} {paymentId address domain : Option JsString}
    (ofForm : submission.Of paymentId)
    (allowed : ∀ args, Carries core paymentId (world.target submission) args →
      args.toAddress = address →
      Next core phase [.sent (world.target submission) args] (.sending args domain))
    (reply : Reply) :
    Simulates core phase world (sendTo core world submission address domain reply) := by
  have begun : Stands .locked (world.setStatus (messageBase submission)) :=
    ⟨quiet.submitting, quiet.dialog, quiet.waits, quiet.works, quiet.sound.change
      (List.Subset.refl _) rfl (List.Subset.refl _) rfl le_rfl⟩
  have same : (world.setStatus (messageBase submission)).target submission =
    world.target submission := rfl
  simp only [sendTo, same]
  cases amount : parseMoney OnLimbs.readOther coreCoin
      ((world.target submission).amount.getD []) with
  | error error => exact Simulates.step (.fail _ _ running) rfl (stands_fail begun _)
  | ok parsed =>
    have carries : Carries core paymentId (world.target submission)
        (sendArgs core (world.setStatus (messageBase submission)) submission address parsed) :=
      ⟨ofForm.1, ofForm.2, parsed, amount, by simp [sendArgs, ofForm.2]⟩
    exact sendFunds_simulated begun rfl (allowed _ carries rfl) reply

/-! ### Callbacks -/

theorem ready_simulated (quiet : Stands .locked world) (targets : Nat)
    (paymentId : Option JsString) (reply : Reply) :
    Simulates core (.requested paymentId) world (ready core world targets paymentId reply) := by
  have thrown : Simulates core (.requested paymentId) world world :=
    ⟨[], .locked, (List.append_nil _).symm, Trace.one (.throw paymentId), quiet⟩
  unfold ready
  split
  · exact thrown
  · rename_i reference others _
    have ofForm : (world.memory.submission reference paymentId).Of paymentId :=
      ⟨rfl, quiet.sound.target reference⟩
    by_cases several : others ≠ []
    · rw [if_pos several]
      exact thrown
    · by_cases falsy : Falsy (world.memory.target reference).address ∧
          Falsy (world.memory.target reference).amount
      · simp only [if_neg several, if_pos falsy]
        exact thrown
      · simp only [if_neg several, if_neg falsy]
        cases read : (world.memory.target reference).address with
        | none => exact thrown
        | some address =>
          by_cases dotted : 46 ∈ address
          · simp only [if_pos dotted]
            refine Simulates.step (.lookUp paymentId _ address read dotted) rfl
              ⟨quiet.submitting, quiet.dialog, ⟨_, ?_, ofForm⟩, quiet.works,
                quiet.sound.change (List.Subset.refl _) rfl (List.Subset.refl _) rfl (by simp)⟩
            rw [show world.pending = [] from quiet.waits]
            rfl
          · simp only [if_neg dotted]
            cases decodes : core.decodeAddress (some address) with
            | error error => exact Simulates.step (.fail _ _ trivial) rfl (stands_fail quiet _)
            | ok =>
              exact sendTo_simulated (.requested paymentId) quiet trivial ofForm
                (fun args carries receiver =>
                  .sendOwn paymentId _ address args read dotted decodes receiver carries) reply

theorem records_simulated (quiet : Stands .locked world) {submission : Submission}
    {paymentId : Option JsString} (ofForm : submission.Of paymentId) (domain : JsString)
    (response : TxtResponse) :
    Simulates core (.looking paymentId domain) world
      (records core world submission domain response) := by
  have failed (error : JsString) :
      Simulates core (.looking paymentId domain) world (world.fail error) :=
    Simulates.step (.fail _ _ trivial) rfl (stands_fail quiet _)
  cases response with
  | failure error => exact failed _
  | answer answer =>
    unfold records
    by_cases invalid : answer.dnssecUsed ∧ ¬ answer.secured
    · simp only [if_pos invalid]
      exact failed _
    · simp only [if_neg invalid]
      cases found : answer.records with
      | none => exact failed _
      | some texts =>
        simp only
        rcases read : readRecords texts with _ | ⟨record, _ | ⟨_, _⟩⟩
        · exact failed _
        · simp only
          cases decodes : core.decodeAddress record.address with
          | error error => exact failed _
          | ok =>
            simp only [confirmOpenAliasAddress,
              show world.scope.openaliasDialog = none from quiet.dialog]
            let dialog : Dialog := ⟨record.address, domain, record.name, record.description,
              answer.dnssecUsed && answer.secured, submission⟩
            have genuine : Genuine core answer dialog :=
              ⟨fun used => by_contra fun unsecured => invalid ⟨used, unsecured⟩,
                ⟨texts, record, found, read, rfl, rfl, rfl⟩, rfl, decodes⟩
            exact Simulates.step (.ask paymentId answer dialog genuine) rfl
              ⟨quiet.submitting, rfl, ⟨quiet.waits, ofForm⟩, quiet.works,
                quiet.sound.change (List.Subset.refl _) rfl (List.Subset.refl _) rfl (by simp)⟩
        · exact failed _

/-- The callback that waits is the only one, and when it is called the page waits for nothing. -/
theorem settle_simulated {phase : Phase} (stands : Stands phase world) (index : Nat)
    (response : TxtResponse) (reply : Reply) :
    Simulates core phase world (settle core world index response reply) := by
  unfold settle
  cases found : world.pending[index]? with
  | none => exact Simulates.stay stands rfl
  | some callback =>
    have only {pending : Pending} (same : world.pending = [pending]) :
        callback = pending ∧ world.pending.eraseIdx index = [] := by
      rw [same] at found ⊢
      cases index with
      | zero => exact ⟨(Option.some.inj found).symm, rfl⟩
      | succ index => simp at found
    have none (same : world.pending = []) : False := by simp [same] at found
    have quiet (submitting : phase.submitting = true) (dialog : phase.dialog = .none)
        (works : world.live = []) (erased : world.pending.eraseIdx index = []) :
        Stands .locked { world with pending := world.pending.eraseIdx index } :=
      ⟨stands.submitting.trans submitting, stands.dialog.trans dialog, erased, works,
        stands.sound.change (List.Subset.refl _) rfl (List.Subset.refl _) rfl le_rfl⟩
    have waits := stands.waits
    have works := stands.works
    cases phase with
    | idle => exact (none waits).elim
    | locked => exact (none waits).elim
    | sending args domain => exact (none waits).elim
    | asking paymentId dialog => exact (none waits.1).elim
    | requested paymentId =>
      obtain ⟨targets, same⟩ := waits
      obtain ⟨rfl, erased⟩ := only same
      exact ready_simulated (quiet rfl rfl works erased) targets paymentId reply
    | looking paymentId domain =>
      obtain ⟨submission, same, ofForm⟩ := waits
      obtain ⟨rfl, erased⟩ := only same
      exact records_simulated (quiet rfl rfl works erased) ofForm domain response
    | agreed paymentId dialog =>
      obtain ⟨rfl, erased⟩ := only waits.1
      exact sendTo_simulated (.agreed paymentId dialog) (quiet rfl rfl works erased) trivial waits.2
        (fun args carries receiver => .sendAgreed paymentId dialog _ args receiver carries) reply
    | declined =>
      obtain ⟨rfl, erased⟩ := only waits
      exact Simulates.step (.fail _ _ trivial) rfl (stands_fail (quiet rfl rfl works erased) _)

/-! ### Buttons -/

theorem sendCoins_simulated {phase : Phase} (stands : Stands phase world) (targets : Nat)
    (paymentId : Option JsString) :
    Simulates core phase world (sendCoins world targets paymentId) := by
  unfold sendCoins
  by_cases submitting : world.scope.submitting = true
  · rw [if_pos submitting]
    exact Simulates.stay stands rfl
  · rw [if_neg submitting]
    have waits := stands.waits
    have works := stands.works
    have dialog := stands.dialog
    cases phase with
    | idle =>
      refine Simulates.step (.press paymentId) rfl ⟨rfl, dialog, ⟨targets, ?_⟩, works,
        stands.sound.change (List.Subset.refl _) rfl (List.Subset.refl _) rfl (by simp)⟩
      rw [show world.pending = [] from waits]
      rfl
    | _ => exact absurd stands.submitting submitting

theorem confirm_simulated {phase : Phase} (stands : Stands phase world) :
    Simulates core phase world (confirm world) := by
  unfold confirm
  have shown := stands.dialog
  cases phase with
  | asking paymentId dialog =>
    simp only [show world.scope.openaliasDialog = some dialog from shown]
    refine Simulates.step (.agree paymentId dialog) rfl
      ⟨stands.submitting, rfl, ⟨?_, stands.waits.2⟩, stands.works,
        stands.sound.change (List.Subset.refl _) rfl (List.Subset.refl _) rfl (by simp)⟩
    rw [stands.waits.1]
    rfl
  | _ =>
    simp only [show world.scope.openaliasDialog = none from shown]
    exact Simulates.stay stands rfl

theorem cancel_simulated {phase : Phase} (stands : Stands phase world) :
    Simulates core phase world (cancel world) := by
  unfold cancel
  have shown := stands.dialog
  cases phase with
  | asking paymentId dialog =>
    simp only [show world.scope.openaliasDialog = some dialog from shown]
    refine Simulates.step (.decline paymentId dialog) rfl
      ⟨stands.submitting, rfl, ?_, stands.works,
        stands.sound.change (List.Subset.refl _) rfl (List.Subset.refl _) rfl (by simp)⟩
    show world.pending ++ _ = _
    rw [stands.waits.1]
    rfl
  | _ =>
    simp only [show world.scope.openaliasDialog = none from shown]
    exact Simulates.stay stands rfl

/-! ### Reports of the core -/

/-- A task of the core that has its callbacks is the one of the submission. -/
theorem task_of_lookup {phase : Phase} (stands : Stands phase world) {number : Nat} {task : Task}
    (taken : number ∈ world.taken) (found : world.handlers.lookup number = some task) :
    ∃ args, phase = .sending args task.domain ∧ world.live = [(number, task)] ∧
      task.toAddress = args.toAddress := by
  have member : (number, task) ∈ world.live := by
    obtain ⟨front, back, parts, _⟩ := List.lookup_eq_some_iff.mp found
    refine List.mem_filter.mpr ⟨?_, decide_eq_true taken⟩
    rw [parts]
    exact List.mem_append_right _ List.mem_cons_self
  have works := stands.works
  cases phase with
  | sending args domain =>
    obtain ⟨_, _, live, receiver, rfl⟩ := works
    rw [live] at member ⊢
    cases List.mem_singleton.mp member
    exact ⟨args, rfl, rfl, receiver⟩
  | _ =>
    rw [show world.live = [] from works] at member
    cases member

theorem stands_resetTargets {phase : Phase} (stands : Stands phase world) :
    Stands phase world.resetTargets :=
  ⟨stands.submitting, stands.dialog, stands.waits, stands.works, stands.sound.resetTargets⟩

theorem live_forget_eq_nil (world : World) {number : Nat} {task : Task}
    (live : world.live = [(number, task)]) : (world.forget number).live = [] := by
  rw [live_forget, live]
  simp

theorem errorFn_simulated {args : SendArgs} {number : Nat} {task : Task}
    (stands : Stands (.sending args task.domain) world) (live : world.live = [(number, task)])
    (message : JsString) :
    Simulates core (.sending args task.domain) world (errorFn world number message) := by
  unfold errorFn
  by_cases empty : message = []
  · rw [if_pos empty]
    exact Simulates.stay (stands_resetTargets stands) rfl
  · rw [if_neg empty]
    exact Simulates.step (.fail _ _ trivial) rfl
      ⟨rfl, stands.dialog, stands.waits, live_forget_eq_nil (world.fail message) live,
        (stands.sound.fail message).forget number⟩

theorem successFn_simulated {args : SendArgs} {number : Nat} {task : Task}
    (stands : Stands (.sending args task.domain) world) (live : world.live = [(number, task)])
    (receiver : task.toAddress = args.toAddress) (params : Success) :
    Simulates core (.sending args task.domain) world (successFn world number task params) := by
  unfold successFn
  split
  · rename_i totalSent txFee _ _
    have reset := stands.sound.resetTargets
    refine Simulates.step (.succeed args _ _ receiver rfl) rfl
      ⟨rfl, stands.dialog, stands.waits, live_forget_eq_nil (world.succeed _) live, ?_⟩
    refine Sound.forget ?_ number
    exact reset.change (List.Subset.refl _) rfl (List.Subset.refl _) rfl (by simp [World.succeed])
  · exact Simulates.stay stands rfl

theorem call_simulated {phase : Phase} (stands : Stands phase world) (number : Nat) (made : Call) :
    Simulates core phase world (call world number made) := by
  unfold call
  by_cases taken : number ∈ world.taken
  · rw [if_pos taken]
    cases found : world.handlers.lookup number with
    | none => exact Simulates.stay stands rfl
    | some task =>
      obtain ⟨args, rfl, live, receiver⟩ := task_of_lookup stands taken found
      cases made with
      | request endpoint =>
        refine Simulates.stay ⟨stands.submitting, stands.dialog, stands.waits, stands.works,
          ⟨stands.sound.handlers, stands.sound.taken, fun request member => ?_,
            stands.sound.parts, stands.sound.single⟩⟩ rfl
        rcases List.mem_append.mp member with old | new
        · exact stands.sound.requests request old
        · rw [List.mem_singleton.mp new]
          exact taken
      | statusUpdate code =>
        exact Simulates.stay ⟨stands.submitting, stands.dialog, stands.waits, stands.works,
          stands.sound.change (List.Subset.refl _) rfl (List.Subset.refl _) rfl le_rfl⟩ rfl
      | error message => exact errorFn_simulated stands live message
      | success params => exact successFn_simulated stands live receiver params
  · rw [if_neg taken]
    exact Simulates.stay stands rfl

theorem answer_simulated {phase : Phase} (stands : Stands phase world) (index : Nat)
    (response : HttpAnswer) (reply : Reply) :
    Simulates core phase world (answer world index response reply) := by
  unfold answer
  cases open' : world.requests[index]? with
  | none => exact Simulates.stay stands rfl
  | some request =>
    obtain ⟨number, endpoint⟩ := request
    have closed : Stands phase { world with requests := world.requests.eraseIdx index } :=
      ⟨stands.submitting, stands.dialog, stands.waits, stands.works, stands.sound.change
        (List.Subset.refl _) rfl (List.eraseIdx_sublist _ _).subset rfl le_rfl⟩
    simp only
    split
    · split
      · exact Simulates.stay closed rfl
      · split
        · exact Simulates.stay closed rfl
        · rename_i found
          have taken := stands.sound.requests _ (List.mem_of_getElem? open')
          obtain ⟨args, rfl, live, _⟩ := task_of_lookup closed taken found
          exact errorFn_simulated closed live _
    · exact Simulates.stay closed rfl

/-! ### The form -/

theorem edit_simulated {phase : Phase} (stands : Stands phase world) (change : Target → Target)
    (whole : ∀ target, (change target).sendAll = target.sendAll) :
    Simulates core phase world (edit world change) := by
  unfold edit
  split
  · refine Simulates.stay ⟨stands.submitting, stands.dialog, stands.waits, stands.works,
      ⟨stands.sound.handlers, stands.sound.taken, stands.sound.requests, fun target member => ?_,
        fun array member => ?_⟩⟩ rfl
    · rcases List.mem_append.mp member with old | new
      · exact stands.sound.parts target old
      · rw [List.mem_singleton.mp new, whole]
    · rcases List.mem_or_eq_of_mem_set member with old | rfl
      · exact stands.sound.single array old
      · exact le_rfl
  · refine Simulates.stay ⟨stands.submitting, stands.dialog, stands.waits, stands.works,
      ⟨stands.sound.handlers, stands.sound.taken, stands.sound.requests, fun target member => ?_,
        stands.sound.single⟩⟩ rfl
    rcases List.mem_or_eq_of_mem_set member with old | rfl
    · exact stands.sound.parts target old
    · rw [whole]
      exact stands.sound.target _

theorem removeTarget_simulated {phase : Phase} (stands : Stands phase world) (index : Nat) :
    Simulates core phase world (removeTarget world index) := by
  refine Simulates.stay ⟨stands.submitting, stands.dialog, stands.waits, stands.works,
    ⟨stands.sound.handlers, stands.sound.taken, stands.sound.requests, stands.sound.parts,
      fun array member => ?_⟩⟩ rfl
  rcases List.mem_or_eq_of_mem_set member with old | rfl
  · exact stands.sound.single array old
  · exact (List.length_eraseIdx_le _ _).trans (stands.sound.array _)

/-! ### Runs -/

/-- Whatever happens, the page does what the protocol lets it. -/
theorem step_simulated {phase : Phase} (stands : Stands phase world) (event : Event) :
    Simulates core phase world (step core world event) := by
  have kept : Sound
      { world with scope := { world.scope with successPage := false, sentTx := none } } :=
    stands.sound.change (List.Subset.refl _) rfl (List.Subset.refl _) rfl le_rfl
  cases event with
  | editAddress value => exact edit_simulated stands _ fun _ => rfl
  | editAmount value => exact edit_simulated stands _ fun _ => rfl
  | removeTarget index => exact removeTarget_simulated stands index
  | sendCoins paymentId => exact sendCoins_simulated stands _ paymentId
  | resetSuccessPage =>
    exact Simulates.stay
      ⟨stands.submitting, stands.dialog, stands.waits, stands.works, kept⟩ rfl
  | confirm => exact confirm_simulated stands
  | cancel => exact cancel_simulated stands
  | callback index response reply => exact settle_simulated stands index response reply
  | call number made => exact call_simulated stands number made
  | answer index response reply => exact answer_simulated stands index response reply
  | session service =>
    exact Simulates.stay ⟨stands.submitting, stands.dialog, stands.waits, stands.works,
      stands.sound.change (List.Subset.refl _) rfl (List.Subset.refl _) rfl le_rfl⟩ rfl

/-- Every run follows the protocol. -/
theorem run_follows (core : Core) (events : List Event) :
    ∃ phase, Trace (Next core) .idle (run core events).log phase ∧
      Stands phase (run core events) :=
  run_trace (step core) World.log Stands (fun _ _ event stands => step_simulated stands event) rfl
    stands_start events

/-! ### One thing at a time -/

/-- How much the page waits for. -/
def World.activities (world : World) : Nat :=
  world.pending.length + world.scope.openaliasDialog.toList.length + world.live.length

theorem activities_le {phase : Phase} (stands : Stands phase world) :
    world.activities ≤ if world.scope.submitting then 1 else 0 := by
  obtain ⟨submitting, dialog, waits, works, _⟩ := stands
  unfold World.activities
  rw [submitting, dialog]
  cases phase with
  | idle =>
    rw [show world.pending = [] from waits, show world.live = [] from works]
    rfl
  | requested paymentId =>
    obtain ⟨targets, pending⟩ := waits
    rw [pending, show world.live = [] from works]
    rfl
  | looking paymentId domain =>
    obtain ⟨submission, pending, _⟩ := waits
    rw [pending, show world.live = [] from works]
    rfl
  | asking paymentId dialog =>
    rw [waits.1, show world.live = [] from works]
    rfl
  | agreed paymentId dialog =>
    rw [waits.1, show world.live = [] from works]
    rfl
  | declined =>
    rw [show world.pending = _ from waits, show world.live = [] from works]
    rfl
  | sending args domain =>
    obtain ⟨number, task, live, _⟩ := works
    rw [show world.pending = [] from waits, live]
    rfl
  | locked =>
    rw [show world.pending = [] from waits, show world.live = [] from works]
    exact Nat.zero_le 1

/-- While a domain is looked up, no dialog is shown. -/
theorem dialog_of_records {phase : Phase} (stands : Stands phase world) {index : Nat}
    {submission : Submission} {domain : JsString}
    (waiting : world.pending[index]? = some (.records submission domain)) :
    world.scope.openaliasDialog = none := by
  cases phase with
  | asking paymentId dialog =>
    rw [stands.waits.1] at waiting
    cases waiting
  | _ => exact stands.dialog

/-! ### Exceptions -/

/-- The page is submitting but waits for nothing. -/
structure World.Locked (world : World) : Prop where
  submitting : world.scope.submitting = true
  pending : world.pending = []
  dialog : world.scope.openaliasDialog = none
  live : world.live = []

/-- The form has no target, or one whose address is undefined, or neither has a text in it. -/
def Unfilled (memory : Memory) (targets : Nat) : Prop :=
  ∀ reference ∈ memory.array targets, (memory.target reference).address = none ∨
    (memory.target reference).address = some [] ∧ Falsy (memory.target reference).amount

theorem Stands.locked {phase : Phase} (stands : Stands phase world) (locked : world.Locked) :
    Stands .locked world :=
  ⟨locked.submitting, locked.dialog, locked.pending, locked.live, stands.sound⟩

theorem locked_of_stands (stands : Stands .locked world) : world.Locked :=
  ⟨stands.submitting, stands.waits, stands.dialog, stands.works⟩

theorem not_locked_of_idle (free : world.scope.submitting = false) : ¬ world.Locked :=
  fun locked => Bool.false_ne_true (free.symm.trans locked.submitting)

theorem not_locked_of_pending {pending : List Pending} {callback : Pending}
    (waits : world.pending = pending ++ [callback]) : ¬ world.Locked := by
  intro locked
  exact List.append_ne_nil_of_right_ne_nil _ (List.cons_ne_nil _ _)
    (waits.symm.trans locked.pending)

theorem not_locked_of_live {handler : Nat × Task} (works : handler ∈ world.live) :
    ¬ world.Locked :=
  fun locked => List.ne_nil_of_mem works locked.live

theorem sendFunds_not_locked (target : Target) (args : SendArgs) (task : Task) (reply : Reply) :
    ¬ (sendFunds world target args task reply).Locked := by
  have taking : ¬ World.Locked
      { world with
        handlers := (world.log.length, task) :: world.handlers
        log := world.log ++ [.sent target args]
        taken := world.log.length :: world.taken } := by
    refine not_locked_of_live (List.mem_filter.mpr ⟨List.mem_cons_self, ?_⟩)
    exact decide_eq_true List.mem_cons_self
  unfold sendFunds
  cases reply with
  | taken => exact taking
  | refused message =>
    by_cases empty : message = []
    · simp only [if_pos empty]
      exact taking
    · simp only [if_neg empty]
      exact not_locked_of_idle rfl
  | thrown error => exact not_locked_of_idle rfl

theorem sendTo_not_locked (submission : Submission) (address domain : Option JsString)
    (reply : Reply) : ¬ (sendTo core world submission address domain reply).Locked := by
  simp only [sendTo]
  split
  · exact not_locked_of_idle rfl
  · exact sendFunds_not_locked _ _ _ _

theorem records_not_locked (submission : Submission) (domain : JsString) (response : TxtResponse)
    (hidden : world.scope.openaliasDialog = none) :
    ¬ (records core world submission domain response).Locked := by
  unfold records
  cases response with
  | failure error => exact not_locked_of_idle rfl
  | answer answer =>
    simp only [confirmOpenAliasAddress, hidden]
    split
    · exact not_locked_of_idle rfl
    · split
      · exact not_locked_of_idle rfl
      · split
        · exact not_locked_of_idle rfl
        · split
          · exact not_locked_of_idle rfl
          · exact fun locked => Option.some_ne_none _ locked.dialog
        · exact not_locked_of_idle rfl

/-- The callback throws on an unfilled form, and on no other. -/
theorem ready_locked_iff (quiet : Stands .locked world) (targets : Nat)
    (paymentId : Option JsString) (reply : Reply) :
    (ready core world targets paymentId reply).Locked ↔ Unfilled world.memory targets := by
  have single := quiet.sound.array targets
  unfold ready Unfilled
  rcases found : world.memory.array targets with _ | ⟨reference, _ | ⟨_, _⟩⟩
  · exact iff_of_true (locked_of_stands quiet) (by simp)
  · simp only [ne_eq, not_true_eq_false, if_false, List.forall_mem_singleton]
    rcases read : (world.memory.target reference).address with _ | _ | ⟨unit, rest⟩
    · refine iff_of_true ?_ (.inl rfl)
      split <;> exact locked_of_stands quiet
    · by_cases falsy : Falsy (world.memory.target reference).amount
      · rw [if_pos ⟨.inr rfl, falsy⟩]
        exact iff_of_true (locked_of_stands quiet) (.inr ⟨rfl, falsy⟩)
      · rw [if_neg fun both => falsy both.2]
        refine iff_of_false ?_ (by simp [falsy])
        simp only [List.not_mem_nil, if_false]
        split
        · exact not_locked_of_idle rfl
        · exact sendTo_not_locked _ _ _ _
    · rw [if_neg (by simp [Falsy])]
      refine iff_of_false ?_ (by simp)
      simp only
      split
      · exact not_locked_of_pending rfl
      · split
        · exact not_locked_of_idle rfl
        · exact sendTo_not_locked _ _ _ _
  · simp [found] at single

/-- The only step that locks the page. -/
def Throws (world : World) (event : Event) : Prop :=
  ∃ targets paymentId response reply, world.pending = [.ready targets paymentId] ∧
    event = .callback 0 response reply ∧ Unfilled world.memory targets

theorem settle_locked_iff {phase : Phase} (stands : Stands phase world)
    (free : ¬ world.Locked) (index : Nat) (response : TxtResponse) (reply : Reply) :
    (settle core world index response reply).Locked ↔
      Throws world (.callback index response reply) := by
  unfold settle
  cases found : world.pending[index]? with
  | none =>
    refine iff_of_false free ?_
    rintro ⟨targets, paymentId, _, _, pending, same, _⟩
    cases same
    rw [pending] at found
    cases found
  | some callback =>
    have other (different : ∀ targets paymentId, callback ≠ .ready targets paymentId) :
        ¬ Throws world (.callback index response reply) := by
      rintro ⟨targets, paymentId, _, _, pending, same, _⟩
      cases same
      rw [pending] at found
      exact different _ _ (Option.some.inj found).symm
    cases callback with
    | records submission domain =>
      have hidden := dialog_of_records stands found
      exact iff_of_false (records_not_locked submission domain response hidden)
        (other fun _ _ same => by cases same)
    | confirmed submission address domain =>
      exact iff_of_false (sendTo_not_locked _ _ _ _) (other fun _ _ same => by cases same)
    | canceled =>
      exact iff_of_false (not_locked_of_idle rfl) (other fun _ _ same => by cases same)
    | ready targets paymentId =>
      have waits := stands.waits
      cases phase with
      | requested requestedId =>
        obtain ⟨array, pending⟩ := waits
        rw [pending] at found
        cases index with
        | succ index => simp at found
        | zero =>
          cases found
          have quiet : Stands .locked { world with pending := world.pending.eraseIdx 0 } :=
            ⟨stands.submitting, stands.dialog, by rw [pending]; rfl, stands.works,
              stands.sound.change (List.Subset.refl _) rfl (List.Subset.refl _) rfl le_rfl⟩
          refine (ready_locked_iff quiet _ _ reply).trans ⟨fun unfilled => ?_, ?_⟩
          · exact ⟨_, _, response, reply, pending, rfl, unfilled⟩
          · rintro ⟨_, _, _, _, same, _, unfilled⟩
            rw [pending] at same
            cases same
            exact unfilled
      | idle => simp [show world.pending = [] from waits] at found
      | locked => simp [show world.pending = [] from waits] at found
      | sending args domain => simp [show world.pending = [] from waits] at found
      | asking paymentId dialog => simp [waits.1] at found
      | looking paymentId domain =>
        obtain ⟨submission, pending, _⟩ := waits
        rw [pending] at found
        cases index <;> simp at found
      | agreed paymentId dialog =>
        rw [waits.1] at found
        cases index <;> simp at found
      | declined =>
        rw [show world.pending = _ from waits] at found
        cases index <;> simp at found

theorem errorFn_locked {number : Nat} {message : JsString}
    (locked : (errorFn world number message).Locked) : world.Locked := by
  unfold errorFn at locked
  split at locked
  · exact ⟨locked.submitting, locked.pending, locked.dialog, locked.live⟩
  · exact absurd locked (not_locked_of_idle rfl)

theorem call_locked {number : Nat} {made : Call} (locked : (call world number made).Locked) :
    world.Locked := by
  unfold call at locked
  split at locked
  · split at locked
    · exact locked
    · cases made with
      | request endpoint =>
        exact ⟨locked.submitting, locked.pending, locked.dialog, locked.live⟩
      | statusUpdate code =>
        exact ⟨locked.submitting, locked.pending, locked.dialog, locked.live⟩
      | error message => exact errorFn_locked locked
      | success params =>
        simp only [successFn] at locked
        split at locked
        · exact absurd locked (not_locked_of_idle rfl)
        · exact locked
  · exact locked

theorem answer_locked {index : Nat} {response : HttpAnswer} {reply : Reply}
    (locked : (answer world index response reply).Locked) : world.Locked := by
  unfold answer at locked
  split at locked
  · exact locked
  · have closed {requests : List (Nat × Endpoint)}
        (locked : World.Locked { world with requests := requests }) : world.Locked :=
      ⟨locked.submitting, locked.pending, locked.dialog, locked.live⟩
    simp only at locked
    split at locked
    · split at locked
      · exact closed locked
      · split at locked
        · exact closed locked
        · exact closed (errorFn_locked locked)
    · exact closed locked

/-- A step locks the page exactly when it throws. -/
theorem step_locked_iff {phase : Phase} (stands : Stands phase world) (free : ¬ world.Locked)
    (event : Event) : (step core world event).Locked ↔ Throws world event := by
  have same {after : World} (locked : after.Locked)
      (submitting : after.scope.submitting = world.scope.submitting)
      (pending : after.pending = world.pending)
      (dialog : after.scope.openaliasDialog = world.scope.openaliasDialog)
      (live : after.live = world.live) : False :=
    free ⟨submitting ▸ locked.submitting, pending ▸ locked.pending, dialog ▸ locked.dialog,
      live ▸ locked.live⟩
  have edited (change : Target → Target) : ¬ (edit world change).Locked := by
    unfold edit
    split <;> exact fun locked => same locked rfl rfl rfl rfl
  have quiet (other : ∀ index response reply, event ≠ .callback index response reply)
      (stays : ¬ (step core world event).Locked) :
      (step core world event).Locked ↔ Throws world event := by
    refine iff_of_false stays ?_
    rintro ⟨_, _, response, reply, _, made, _⟩
    exact other 0 response reply made
  cases event with
  | callback index response reply => exact settle_locked_iff stands free index response reply
  | editAddress value =>
    exact quiet (fun _ _ _ made => by cases made)
      (edited fun target => { target with address := value })
  | editAmount value =>
    exact quiet (fun _ _ _ made => by cases made)
      (edited fun target => { target with amount := value })
  | removeTarget index =>
    exact quiet (fun _ _ _ made => by cases made) fun locked => same locked rfl rfl rfl rfl
  | sendCoins paymentId =>
    refine quiet (fun _ _ _ made => by cases made) fun locked => ?_
    simp only [step, sendCoins] at locked
    split at locked
    · exact free locked
    · exact not_locked_of_pending rfl locked
  | resetSuccessPage =>
    exact quiet (fun _ _ _ made => by cases made) fun locked => same locked rfl rfl rfl rfl
  | confirm =>
    refine quiet (fun _ _ _ made => by cases made) fun locked => ?_
    simp only [step, confirm] at locked
    split at locked
    · exact free locked
    · exact not_locked_of_pending rfl locked
  | cancel =>
    refine quiet (fun _ _ _ made => by cases made) fun locked => ?_
    simp only [step, cancel] at locked
    split at locked
    · exact free locked
    · exact not_locked_of_pending rfl locked
  | call number made =>
    exact quiet (fun _ _ _ made => by cases made) fun locked => free (call_locked locked)
  | answer index response reply =>
    exact quiet (fun _ _ _ made => by cases made) fun locked => free (answer_locked locked)
  | session service =>
    exact quiet (fun _ _ _ made => by cases made) fun locked => same locked rfl rfl rfl rfl

/-- Nothing unlocks a page, and it does nothing any more. -/
theorem locked_run (quiet : Stands .locked world) (later : List Event) :
    Stands .locked (Runs.run (step core) world later) ∧
      (Runs.run (step core) world later).log = world.log := by
  refine Runs.run_invariant_of_step (step core)
    (fun after => Stands .locked after ∧ after.log = world.log) ?_ later world ⟨quiet, rfl⟩
  rintro after event ⟨stands, same⟩
  obtain ⟨entries, reached, told, trace, standing⟩ :
    Simulates core .locked after (step core after event) := step_simulated stands event
  obtain ⟨rfl, rfl⟩ := locked_trace trace
  rw [List.append_nil] at told
  exact ⟨standing, told.trans same⟩

end

/-! ### Amounts -/

theorem units_page {decimal : Decimal} (fits : decimal.Fits coreCoin.coinUnitPlaces) :
    decimal.units pageCoin.coinUnitPlaces = 10 ^ 4 * decimal.units coreCoin.coinUnitPlaces := by
  have places : pageCoin.coinUnitPlaces - (decimal.fraction.getD []).length =
      4 + (coreCoin.coinUnitPlaces - (decimal.fraction.getD []).length) := by
    have bound : (decimal.fraction.getD []).length ≤ 8 := fits
    show 12 - _ = 4 + (8 - _)
    omega
  have magnitude : decimal.magnitude pageCoin.coinUnitPlaces =
      10 ^ 4 * decimal.magnitude coreCoin.coinUnitPlaces := by
    unfold Decimal.magnitude
    rw [places, show pageCoin.coinUnitPlaces = 4 + coreCoin.coinUnitPlaces from rfl, pow_add,
      pow_add]
    ring
  unfold Decimal.units
  rw [magnitude]
  split <;> push_cast <;> ring

theorem totalAmount_of_single {world : World} {reference : Nat}
    (single : world.memory.array world.scope.targets = [reference]) {value : Int}
    (read : parseMoney OnLimbs.readOther pageCoin
      ((world.memory.target reference).amount.getD []) = .ok (.bigInteger value)) :
    totalAmount world = value := by
  unfold totalAmount
  simp only [single, List.map_singleton, List.sum_singleton, read]

/-! ### Results -/

/-- An address that the core decodes. -/
def donation : JsString :=
  .ofString ("44AFFq5kSiGBoZ4NMDwYtN18obc8AemS33DBLWs3H7otXft3XjrpDtQGv7SqSsaBYBb98uNbr2" ++
    "VBBEt7f2wfn3RVGQBEP3A")

/-- A core that decodes this address. -/
def oneAddress : Core where
  decodeAddress := fun address =>
    if address = some donation then .ok () else .error (.ofString "Invalid address")
  methodText := .ofString "function () { [native code] }"
  loopError := .ofString "TypeError: records is undefined"
  promiseError := .ofString "TypeError: confirmOpenAliasAddress(...) is undefined"

/-- The address and an amount of one are typed, and the core takes the task. -/
def oneCoin : List Event :=
  [.editAddress (some donation), .editAmount (some [49]), .sendCoins none,
    .callback 0 (.failure none) .taken]

/-- The target that is typed. -/
def oneTarget : Target := { address := some donation, amount := some [49] }

/-- The arguments of the call that is made for it. -/
def oneSent : SendArgs :=
  { isSweeping := false
    paymentId := none
    sendingAmount := .ofString "100000000"
    fromAddress := []
    secretKeys := none
    publicKeys := none
    toAddress := some donation }

/-- In every run the page follows the protocol, and waits for one thing at most, for none when it
is not submitting. No dialog is shown when an answer asks for one. -/
theorem page_follows_protocol (core : Core) (events : List Event) :
    (∃ phase, Trace (Next core) .idle (run core events).log phase ∧
      Stands phase (run core events)) ∧
    ((run core events).activities ≤ if (run core events).scope.submitting then 1 else 0) ∧
    ∀ (index : Nat) (submission : Submission) (domain : JsString),
      (run core events).pending[index]? = some (.records submission domain) →
        (run core events).scope.openaliasDialog = none := by
  obtain ⟨phase, trace, stands⟩ := run_follows core events
  exact ⟨⟨phase, trace, stands⟩, activities_le stands, fun _ _ _ => dialog_of_records stands⟩

/-- Whenever the page has called the core, what it has done before justifies the call, and the first
thing that it has done since is to report on it. -/
theorem calls_justified (core : Core) (events : List Event) {before after : List Entry}
    {target : Target} {args : SendArgs}
    (happened : (run core events).log = before ++ .sent target args :: after) :
    Justified core before target args ∧ Reported args after := by
  obtain ⟨_, trace, _⟩ := run_follows core events
  exact sent_of_trace trace happened

theorem calls_justified_oneCoin :
    Justified oneAddress [.pressed none] oneTarget oneSent ∧ Reported oneSent [] :=
  calls_justified oneAddress oneCoin (by rfl)

/-- The page is locked by the callback of an unfilled form and by nothing else, and a locked page
stays locked and does nothing any more. -/
theorem page_locked_iff (core : Core) (events : List Event) :
    (∀ event, ¬ (run core events).Locked →
      ((run core (events ++ [event])).Locked ↔ Throws (run core events) event)) ∧
    ∀ later, (run core events).Locked →
      (run core (events ++ later)).Locked ∧
        (run core (events ++ later)).log = (run core events).log := by
  obtain ⟨phase, _, stands⟩ := run_follows core events
  unfold run at *
  refine ⟨fun event free => ?_, fun later locked => ?_⟩
  · rw [Runs.run_append]
    exact step_locked_iff stands free event
  · rw [Runs.run_append]
    exact (locked_run (stands.locked locked) later).imp locked_of_stands id

/-- Where an amount of eight places at most has been sent, the core was given units of which the
page counts ten thousand for each when it adds up a form with the same amount. -/
theorem amounts_differ (core : Core) (events : List Event) {before after : List Entry}
    {target : Target} {args : SendArgs} {decimal : Decimal}
    (happened : (run core events).log = before ++ .sent target args :: after)
    (typed : target.amount = some decimal.text) (fits : decimal.Fits coreCoin.coinUnitPlaces)
    (read : ¬ decimal.MinusAndPoint) :
    args.sendingAmount = JSBigInt.toString (decimal.units coreCoin.coinUnitPlaces) ∧
    ∀ (world : World) (reference : Nat), world.memory.array world.scope.targets = [reference] →
      (world.memory.target reference).amount = some decimal.text →
        totalAmount world = 10 ^ 4 * decimal.units coreCoin.coinUnitPlaces := by
  obtain ⟨_, trace, _⟩ := run_follows core events
  have carried : ∃ paymentId, Carries core paymentId target args := by
    cases (sent_of_trace trace happened).1 with
    | own paymentId _ _ _ _ _ _ carries => exact ⟨paymentId, carries⟩
    | agreed paymentId _ _ _ _ _ _ _ carries => exact ⟨paymentId, carries⟩
  obtain ⟨_, carries⟩ := carried
  obtain ⟨parsed, amount, sent⟩ := carries.amount
  rw [typed, Option.getD_some, parseMoney_text _ _ fits, if_neg read] at amount
  cases amount
  refine ⟨sent, fun world reference single shown => totalAmount_of_single single ?_⟩
  have fitsPage : decimal.Fits pageCoin.coinUnitPlaces := Nat.le_trans fits (by decide)
  rw [shown, Option.getD_some, parseMoney_text _ _ fitsPage, if_neg read, units_page fits]

theorem amounts_differ_oneCoin :
    oneSent.sendingAmount = JSBigInt.toString
      (Decimal.units ⟨.absent, [1], none, by decide, by decide⟩ coreCoin.coinUnitPlaces) ∧
    ∀ (world : World) (reference : Nat), world.memory.array world.scope.targets = [reference] →
      (world.memory.target reference).amount =
          some (Decimal.text ⟨.absent, [1], none, by decide, by decide⟩) →
        totalAmount world = 10 ^ 4 *
          Decimal.units ⟨.absent, [1], none, by decide, by decide⟩ coreCoin.coinUnitPlaces :=
  amounts_differ oneAddress oneCoin (show (run oneAddress oneCoin).log =
    [.pressed none] ++ .sent oneTarget oneSent :: [] by rfl) rfl (Nat.zero_le _) (by decide)

end LightWallet.Frontend.SendCoins
