/-
This file models the page that sends coins: its form, the lookup and the confirmation of
an OpenAlias address, and the hand-over to the core that makes the transaction.

One press of the button goes on over several callbacks, and the user may edit the form
between them. The address is read when the core is ready, the amount when the core is
called, both out of the target that the form shows; an exception in a callback ends a
submission without a word, and the page stays locked. The bridge to the core forgets a
submission with the first report on it.

The core is compiled code: it answers as it likes, on the submissions that it has taken.
-/

import LightWallet.Runs
import LightWallet.Frontend.AccountService
import LightWallet.Frontend.OpenAlias
import LightWallet.Frontend.OnLimbs

namespace LightWallet.Frontend.SendCoins

open CnUtil AccountService

/-! ### Code outside the scripts -/

/-- What the page relies on: the core's reading of an address, and texts that the engine makes of
a method and of the exceptions of a loop over `undefined` and of a promise that is `undefined`. -/
structure Core where
  decodeAddress : Option JsString → Except JsString Unit
  methodText : JsString
  loopError : JsString
  promiseError : JsString

theorem pow_pagePlaces : JSBigInt.pow 10 12 = .ok (10 ^ 12) := rfl

/-- `coinUnitPlaces` of the page. -/
def pageCoin : Coin where
  coinUnitPlaces := 12
  coinUnits := 10 ^ 12
  powered := pow_pagePlaces

/-- `coinUnitPlaces` of the core. -/
def coreCoin : Coin where
  coinUnitPlaces := 8
  coinUnits := 10 ^ 8
  powered := rfl

/-! ### The page -/

/-- A target of the form. -/
structure Target where
  address : Option JsString := none
  amount : Option JsString := none
  sendAll : Bool := false
deriving DecidableEq

/-- The objects that the page and its callbacks refer to: targets, and arrays of them. -/
structure Memory where
  targets : List Target
  arrays : List (List Nat)
deriving DecidableEq

/-- The target behind a reference. -/
def Memory.target (memory : Memory) (reference : Nat) : Target :=
  memory.targets.getD reference {}

/-- The array behind a reference. -/
def Memory.array (memory : Memory) (reference : Nat) : List Nat :=
  memory.arrays.getD reference []

/-- What the callbacks of one press of the button share. -/
structure Submission where
  target : Nat
  sweeping : Bool
  amount : JsString
  paymentId : Option JsString
deriving DecidableEq

/-- `$scope.openaliasDialog`, with the submission that its buttons go on with. -/
structure Dialog where
  address : Option JsString
  domain : JsString
  name : Option JsString
  description : Option JsString
  dnssecUsed : Bool
  submission : Submission
deriving DecidableEq

/-- `$scope.sent_tx`. -/
structure SentTx where
  address : Option JsString
  domain : Option JsString
  amount : Int
  paymentId : Option JsString
  txId : JsString
  txFee : Int
  txKey : JsString
deriving DecidableEq

/-- The variables of the page. An array of targets stands under its reference. -/
structure Scope where
  status : JsString := []
  error : JsString := []
  submitting : Bool := false
  targets : Nat := 0
  successPage : Bool := false
  sentTx : Option SentTx := none
  openaliasDialog : Option Dialog := none
deriving DecidableEq

/-- The arguments that the core is called with. -/
structure SendArgs where
  isSweeping : Bool
  paymentId : Option JsString
  sendingAmount : JsString
  fromAddress : JsString
  secretKeys : Option PrivateKeys
  publicKeys : Option DecodedAddress
  toAddress : Option JsString
deriving DecidableEq

/-- What the callbacks of a call of the core know of it. -/
structure Task where
  toAddress : Option JsString
  domain : Option JsString
  messageBase : JsString
deriving DecidableEq

/-- A callback that a promise will call. -/
inductive Pending where
  | ready (targets : Nat) (paymentId : Option JsString)
  | records (submission : Submission) (domain : JsString)
  | confirmed (submission : Submission) (address : Option JsString) (domain : JsString)
  | canceled
deriving DecidableEq

/-- What the server tells of a domain, where nothing stands for `undefined`. -/
structure TxtAnswer where
  dnssecUsed : Bool
  secured : Bool
  dnssecFailReason : JsString
  records : Option (List JsString)
deriving DecidableEq

/-- What the page has done, with the target as it was. -/
inductive Entry where
  | pressed (paymentId : Option JsString)
  | lookedUp (target : Target) (domain : JsString)
  | asked (answer : TxtAnswer) (dialog : Dialog)
  | agreed
  | declined
  | sent (target : Target) (args : SendArgs)
  | failed (error : JsString)
  | succeeded (tx : SentTx)
deriving DecidableEq

/-- The requests that the core has the page make. -/
inductive Endpoint where
  | unspentOuts
  | randomOuts
  | submitRawTx
deriving DecidableEq

/-- The page, the callbacks that promises wait to call, the bridge to the core with the tasks it
has callbacks for, and the requests that are open for a task. The tasks that the core has taken
and the list of what the page has done are no variables of the scripts. -/
structure World where
  memory : Memory := ⟨[{}], [[0]]⟩
  scope : Scope := {}
  service : Service := {}
  pending : List Pending := []
  handlers : List (Nat × Task) := []
  requests : List (Nat × Endpoint) := []
  taken : List Nat := []
  log : List Entry := []
deriving DecidableEq

/-- The target as the callbacks of a submission find it. -/
def World.target (world : World) (submission : Submission) : Target :=
  world.memory.target submission.target

/-! ### The end of a submission -/

/-- `fn` with an error. -/
def World.fail (world : World) (error : JsString) : World :=
  { world with
    scope := { world.scope with
      status := []
      error := .ofString "Something unexpected occurred when sending funds: " ++ error
      submitting := false }
    log := world.log ++ [.failed error] }

/-- `$scope.targets = [{}]`. -/
def World.resetTargets (world : World) : World :=
  { world with
    memory :=
      { targets := world.memory.targets ++ [{}]
        arrays := world.memory.arrays ++ [[world.memory.targets.length]] }
    scope := { world.scope with targets := world.memory.arrays.length } }

/-- `fn` without an error. -/
def World.succeed (world : World) (tx : SentTx) : World :=
  let world := world.resetTargets
  { world with
    scope := { world.scope with
      sentTx := some tx
      successPage := true
      status := []
      submitting := false }
    log := world.log ++ [.succeeded tx] }

/-! ### Calls of the core -/

/-- What the core does when it is called: it takes the task, or refuses it with a message, or
throws. -/
inductive Reply where
  | taken
  | refused (message : JsString)
  | thrown (error : JsString)
deriving DecidableEq

/-- The bridge forgets the callbacks of a task. -/
def World.forget (world : World) (number : Nat) : World :=
  { world with handlers := world.handlers.filter fun handler => handler.1 ≠ number }

/-- `async__send_funds`, and what is made of an exception of it. The identifiers of tasks are drawn
at random and taken as different. -/
def sendFunds (world : World) (target : Target) (args : SendArgs) (task : Task) (reply : Reply) :
    World :=
  let number := world.log.length
  let world : World :=
    { world with
      handlers := (number, task) :: world.handlers
      log := world.log ++ [.sent target args] }
  match reply with
  | .taken => { world with taken := number :: world.taken }
  | .refused message =>
    if message = [] then { world with taken := number :: world.taken }
    else { (world.fail message).forget number with taken := number :: world.taken }
  | .thrown error => world.fail (.ofString "Failed to send with exception: " ++ error)

/-- The text of the step that the status begins with. The dots are one character. -/
def messageBase (submission : Submission) : JsString :=
  if submission.sweeping then JsString.ofString "Sending wallet balance…"
  else JsString.ofString "Sending " ++ submission.amount ++ JsString.ofString " XMR…"

/-- `parsed_amount.toString()`. -/
def amountText (core : Core) : Parsed → JsString
  | .bigInteger value => JSBigInt.toString value
  | .negate => core.methodText

/-- `send_args`. -/
def sendArgs (core : Core) (world : World) (submission : Submission) (address : Option JsString)
    (parsed : Parsed) : SendArgs :=
  { isSweeping := submission.sweeping
    paymentId := submission.paymentId
    sendingAmount := if submission.sweeping then [48] else amountText core parsed
    fromAddress := world.service.publicAddress
    secretKeys := world.service.privateKeys
    publicKeys := world.service.publicKeys
    toAddress := address }

/-- `_configureWith_statusUpdate`. -/
def World.setStatus (world : World) (status : JsString) : World :=
  { world with scope := { world.scope with status := status } }

/-- `sendTo`. -/
def sendTo (core : Core) (world : World) (submission : Submission)
    (address domain : Option JsString) (reply : Reply) : World :=
  let world := world.setStatus (messageBase submission)
  match parseMoney OnLimbs.readOther coreCoin ((world.target submission).amount.getD []) with
  | .error _ => world.fail (.ofString "Please enter a valid amount")
  | .ok parsed =>
    sendFunds world (world.target submission) (sendArgs core world submission address parsed)
      ⟨address, domain, messageBase submission⟩ reply

/-! ### Callbacks -/

/-- `!string`. -/
def Falsy (string : Option JsString) : Prop := string = none ∨ string = some []

instance (string : Option JsString) : Decidable (Falsy string) :=
  inferInstanceAs (Decidable (_ ∨ _))

/-- `sendCoins`, up to the promise of the core. -/
def sendCoins (world : World) (targets : Nat) (paymentId : Option JsString) : World :=
  if world.scope.submitting then world
  else
    { world with
      scope := { world.scope with status := [], error := [], submitting := true }
      pending := world.pending ++ [.ready targets paymentId]
      log := world.log ++ [.pressed paymentId] }

/-- What the callbacks share once the target is read, with the amount that the status shows. -/
def Memory.submission (memory : Memory) (reference : Nat) (paymentId : Option JsString) :
    Submission :=
  let target := memory.target reference
  { target := reference
    sweeping := target.sendAll
    amount := if target.sendAll then [48] else target.amount.getD (.ofString "undefined")
    paymentId := paymentId }

/-- The callback of `sendCoins` once the core is ready. Where it throws, nobody catches. -/
def ready (core : Core) (world : World) (targets : Nat) (paymentId : Option JsString)
    (reply : Reply) : World :=
  match world.memory.array targets with
  | [] => world
  | reference :: others =>
    let target := world.memory.target reference
    if others ≠ [] then world
    else if Falsy target.address ∧ Falsy target.amount then world
    else
      let submission := world.memory.submission reference paymentId
      match target.address with
      | none => world
      | some address =>
        if 46 ∈ address then
          let domain := address.map fun unit => if unit = 64 then 46 else unit
          { world with
            pending := world.pending ++ [.records submission domain]
            log := world.log ++ [.lookedUp target domain] }
        else match core.decodeAddress (some address) with
        | .error error => world.fail (.ofString "Failed to decode address with error: " ++ error)
        | .ok _ => sendTo core world submission (some address) none reply

/-- The records that are read, in the loop over all of them. -/
def readRecords : List JsString → List OpenAlias.Parsed
  | [] => []
  | record :: rest =>
    match OpenAlias.parseOpenAliasRecord record with
    | .error _ => readRecords rest
    | .ok parsed => parsed :: readRecords rest

/-- `confirmOpenAliasAddress`, or none if a dialog is shown already. -/
def confirmOpenAliasAddress (world : World) (dialog : Dialog) : Option World :=
  match world.scope.openaliasDialog with
  | some _ => none
  | none => some { world with scope := { world.scope with openaliasDialog := some dialog } }

/-- What the server has to say about a domain: it answers, or it fails with a text or without. -/
inductive TxtResponse where
  | answer (answer : TxtAnswer)
  | failure (error : Option JsString)
deriving DecidableEq

/-- The callbacks of the request for the records of a domain. -/
def records (core : Core) (world : World) (submission : Submission) (domain : JsString) :
    TxtResponse → World
  | .failure error => world.fail (.ofString "Failed to resolve DNS records for '" ++ domain ++
      .ofString "': " ++ error.getD (.ofString "Unknown error"))
  | .answer answer =>
    if answer.dnssecUsed ∧ ¬ answer.secured then
      world.fail (.ofString "DNSSEC validation failed for " ++ domain ++ .ofString ": " ++
        answer.dnssecFailReason)
    else match answer.records with
    | none => world.fail (.ofString "Failed to resolve DNS records for '" ++ domain ++
        .ofString "': " ++ core.loopError)
    | some texts =>
      match readRecords texts with
      | [] => world.fail (.ofString "No OpenAlias records found for: " ++ domain)
      | [record] =>
        let failed (error : JsString) :=
          world.fail (.ofString "Failed to decode OpenAlias address: " ++
            record.address.getD (.ofString "undefined") ++ .ofString ": " ++ error)
        match core.decodeAddress record.address with
        | .error error => failed error
        | .ok _ =>
          let dialog :=
            { address := record.address
              domain := domain
              name := record.name
              description := record.description
              dnssecUsed := answer.dnssecUsed && answer.secured
              submission := submission }
          match confirmOpenAliasAddress world dialog with
          | none => failed core.promiseError
          | some shown => { shown with log := shown.log ++ [.asked answer dialog] }
      | _ :: _ :: _ =>
        world.fail (.ofString "Multiple addresses found for given domain: " ++ domain)

/-! ### The dialog -/

/-- `confirm`, which nobody can call when no dialog is shown. -/
def confirm (world : World) : World :=
  match world.scope.openaliasDialog with
  | none => world
  | some dialog =>
    { world with
      scope := { world.scope with openaliasDialog := none }
      pending := world.pending ++ [.confirmed dialog.submission dialog.address dialog.domain]
      log := world.log ++ [.agreed] }

/-- `cancel`. -/
def cancel (world : World) : World :=
  match world.scope.openaliasDialog with
  | none => world
  | some _ =>
    { world with
      scope := { world.scope with openaliasDialog := none }
      pending := world.pending ++ [.canceled]
      log := world.log ++ [.declined] }

/-! ### Reports of the core -/

/-- What the core reports of a transaction. The page reads the amounts as numbers. -/
structure Success where
  totalSent : JsString
  usedFee : JsString
  txHash : JsString
  txKey : JsString
  finalPaymentId : Option JsString
deriving DecidableEq

/-- What the core calls the bridge for. -/
inductive Call where
  | request (endpoint : Endpoint)
  | statusUpdate (code : Nat)
  | error (message : JsString)
  | success (params : Success)
deriving DecidableEq

/-- `SendFunds_ProcessStep_MessageSuffix`. -/
def messageSuffix : Nat → JsString
  | 1 => .ofString "Fetching latest balance."
  | 2 => .ofString "Calculating fee."
  | 3 => .ofString "Fetching decoy outputs."
  | 4 => .ofString "Constructing transaction."
  | 5 => .ofString "Submitting transaction."
  | _ => .ofString "undefined"

/-- `error_fn`, and after it the bridge. An empty message is no error to `fn`, which then throws
when it reads the transaction, after it has made new targets. -/
def errorFn (world : World) (number : Nat) (message : JsString) : World :=
  if message = [] then world.resetTargets else (world.fail message).forget number

/-- `success_fn`, and after it the bridge. Where an amount is no number, it throws. -/
def successFn (world : World) (number : Nat) (task : Task) (params : Success) : World :=
  match JSBigInt.parse OnLimbs.readOther params.totalSent,
      JSBigInt.parse OnLimbs.readOther params.usedFee with
  | .ok totalSent, .ok txFee =>
    (world.succeed
      { address := task.toAddress
        domain := task.domain
        amount := totalSent
        paymentId := params.finalPaymentId
        txId := params.txHash
        txFee := txFee
        txKey := params.txKey }).forget number
  | _, _ => world

/-- A call of the core for a task that it has taken. Without the callbacks of the task, the call
throws in the core. -/
def call (world : World) (number : Nat) (made : Call) : World :=
  if number ∈ world.taken then
    match world.handlers.lookup number with
    | none => world
    | some task =>
      match made with
      | .request endpoint => { world with requests := world.requests ++ [(number, endpoint)] }
      | .statusUpdate code => world.setStatus (task.messageBase ++ [32] ++ messageSuffix code)
      | .error message => errorFn world number message
      | .success params => successFn world number task params
  else world

/-- What comes of a request: data, or a refusal with a text or without, or no answer at all. -/
inductive HttpAnswer where
  | data
  | refusal (error : Option JsString)
  | nothing
deriving DecidableEq

/-- What the callback of a request is called with: no error, or one. Without an answer a field of
`null` is read, and the callback is not called. -/
def post (fallback : JsString) : HttpAnswer → Option (Option JsString)
  | .data => some none
  | .refusal error => some (some (error.getD fallback))
  | .nothing => none

/-- `UnspentOuts`. -/
def unspentOuts : HttpAnswer → Option (Option JsString) :=
  post (.ofString "Something went wrong with getting your available balance for spending")

/-- `RandomOuts`. -/
def randomOuts : HttpAnswer → Option (Option JsString) :=
  post (.ofString "Something went wrong while getting decoy outputs")

/-- `SubmitRawTx`. -/
def submitRawTx : HttpAnswer → Option (Option JsString) :=
  post (.ofString "Something went wrong while submitting your transaction")

/-- What the endpoint hands to its callback. -/
def Endpoint.callback : Endpoint → HttpAnswer → Option (Option JsString)
  | .unspentOuts => SendCoins.unspentOuts
  | .randomOuts => SendCoins.randomOuts
  | .submitRawTx => SendCoins.submitRawTx

/-- A request is answered, and the bridge tells the core, which may refuse to go on. -/
def answer (world : World) (index : Nat) (response : HttpAnswer) (reply : Reply) : World :=
  match world.requests[index]? with
  | none => world
  | some (number, endpoint) =>
    let world := { world with requests := world.requests.eraseIdx index }
    match endpoint.callback response, reply with
    | some _, .refused message =>
      -- The bridge passes on a message that is not empty, and throws without the callback for it.
      if message = [] then world
      else match world.handlers.lookup number with
      | none => world
      | some _ => errorFn world number message
    | _, _ => world

/-! ### The form -/

/-- What an input of the form writes to `targets[0]`, which it makes if there is none. -/
def edit (world : World) (change : Target → Target) : World :=
  match world.memory.array world.scope.targets with
  | [] =>
    { world with memory :=
        { targets := world.memory.targets ++ [change {}]
          arrays := world.memory.arrays.set world.scope.targets [world.memory.targets.length] } }
  | reference :: _ =>
    { world with memory :=
        { world.memory with
          targets := world.memory.targets.set reference (change (world.memory.target reference)) } }

/-- `removeTarget`. -/
def removeTarget (world : World) (index : Nat) : World :=
  { world with memory :=
      { world.memory with
        arrays := world.memory.arrays.set world.scope.targets
          ((world.memory.array world.scope.targets).eraseIdx index) } }

/-- `resetSuccessPage`. -/
def resetSuccessPage (world : World) : World :=
  { world with scope := { world.scope with successPage := false, sentTx := none } }

/-- What the watch of the targets adds up. Amounts that are not read are skipped. -/
def totalAmount (world : World) : Int :=
  ((world.memory.array world.scope.targets).map fun reference =>
    let amount := (world.memory.target reference).amount.getD []
    match parseMoney OnLimbs.readOther pageCoin amount with
    | .ok (.bigInteger value) => value
    | _ => 0).sum

/-! ### Steps -/

/-- The user edits the form or presses a button, a callback is called, the core calls, or somebody
logs in or out. -/
inductive Event where
  | editAddress (value : Option JsString)
  | editAmount (value : Option JsString)
  | removeTarget (index : Nat)
  | sendCoins (paymentId : Option JsString)
  | resetSuccessPage
  | confirm
  | cancel
  | callback (index : Nat) (response : TxtResponse) (reply : Reply)
  | call (number : Nat) (made : Call)
  | answer (index : Nat) (response : HttpAnswer) (reply : Reply)
  | session (service : Service)
deriving DecidableEq

/-- A callback is called once. -/
def settle (core : Core) (world : World) (index : Nat) (response : TxtResponse) (reply : Reply) :
    World :=
  match world.pending[index]? with
  | none => world
  | some callback =>
    let world := { world with pending := world.pending.eraseIdx index }
    match callback with
    | .ready targets paymentId => ready core world targets paymentId reply
    | .records submission domain => records core world submission domain response
    | .confirmed submission address domain =>
      sendTo core world submission address (some domain) reply
    | .canceled => world.fail (.ofString "OpenAlias resolution rejected by user")

/-- What an event does to the page and to the core. -/
def step (core : Core) (world : World) : Event → World
  | .editAddress value => edit world fun target => { target with address := value }
  | .editAmount value => edit world fun target => { target with amount := value }
  | .removeTarget index => removeTarget world index
  | .sendCoins paymentId => sendCoins world world.scope.targets paymentId
  | .resetSuccessPage => resetSuccessPage world
  | .confirm => confirm world
  | .cancel => cancel world
  | .callback index response reply => settle core world index response reply
  | .call number made => call world number made
  | .answer index response reply => answer world index response reply
  | .session service => { world with service := service }

/-- The page after events. -/
def run (core : Core) (events : List Event) : World := Runs.run (step core) {} events

end LightWallet.Frontend.SendCoins
