/-
This file says what the page that sends coins is for, as a protocol of what it does with one
press of the button after another.

The protocol has one submission at a time, and nothing ends a submission whose callback has
thrown. What the core is called with can be found out from what was done before, and a
report on it follows before anything else is done.
-/

import LightWallet.Traces
import LightWallet.Frontend.SendCoins

namespace LightWallet.Frontend.SendCoins

open CnUtil AccountService Traces

/-! ### The protocol -/

/-- Where the submission stands, if there is one. -/
inductive Phase where
  | idle
  | requested (paymentId : Option JsString)
  | looking (paymentId : Option JsString) (domain : JsString)
  | asking (paymentId : Option JsString) (dialog : Dialog)
  | agreed (paymentId : Option JsString) (dialog : Dialog)
  | declined
  | sending (args : SendArgs) (domain : Option JsString)
  | locked

/-- The submission goes on without the user, so that it can fail. -/
def Phase.Running : Phase → Prop
  | .idle | .asking _ _ | .locked => False
  | _ => True

/-- The domain that an address is taken for. -/
def domainOf (address : JsString) : JsString :=
  address.map fun unit => if unit = 64 then 46 else unit

/-- The core is called with the payment identifier of the form when the button was pressed, and
with the amount of the target. -/
structure Carries (core : Core) (paymentId : Option JsString) (target : Target) (args : SendArgs) :
    Prop where
  paymentId : args.paymentId = paymentId
  whole : args.isSweeping = false
  amount : ∃ parsed, parseMoney OnLimbs.readOther coreCoin (target.amount.getD []) = .ok parsed ∧
    args.sendingAmount = amountText core parsed

/-- The dialog shows the address of the only record that there is in an answer that has not failed
its validation, and the address is one. -/
structure Genuine (core : Core) (answer : TxtAnswer) (dialog : Dialog) : Prop where
  valid : answer.dnssecUsed = true → answer.secured = true
  only : ∃ texts record, answer.records = some texts ∧ readRecords texts = [record] ∧
    dialog.address = record.address ∧ dialog.name = record.name ∧
    dialog.description = record.description
  shown : dialog.dnssecUsed = (answer.dnssecUsed && answer.secured)
  decodes : core.decodeAddress dialog.address = .ok ()

/-- The steps of the protocol and what each of them tells. -/
inductive Next (core : Core) : Phase → List Entry → Phase → Prop where
  | press (paymentId : Option JsString) :
      Next core .idle [.pressed paymentId] (.requested paymentId)
  | throw (paymentId : Option JsString) : Next core (.requested paymentId) [] .locked
  | lookUp (paymentId : Option JsString) (target : Target) (address : JsString)
      (read : target.address = some address) (dotted : 46 ∈ address) :
      Next core (.requested paymentId) [.lookedUp target (domainOf address)]
        (.looking paymentId (domainOf address))
  | ask (paymentId : Option JsString) (answer : TxtAnswer) (dialog : Dialog)
      (genuine : Genuine core answer dialog) :
      Next core (.looking paymentId dialog.domain) [.asked answer dialog] (.asking paymentId dialog)
  | agree (paymentId : Option JsString) (dialog : Dialog) :
      Next core (.asking paymentId dialog) [.agreed] (.agreed paymentId dialog)
  | decline (paymentId : Option JsString) (dialog : Dialog) :
      Next core (.asking paymentId dialog) [.declined] .declined
  | sendOwn (paymentId : Option JsString) (target : Target) (address : JsString) (args : SendArgs)
      (read : target.address = some address) (plain : 46 ∉ address)
      (decodes : core.decodeAddress (some address) = .ok ())
      (receiver : args.toAddress = some address) (carries : Carries core paymentId target args) :
      Next core (.requested paymentId) [.sent target args] (.sending args none)
  | sendAgreed (paymentId : Option JsString) (dialog : Dialog) (target : Target) (args : SendArgs)
      (receiver : args.toAddress = dialog.address) (carries : Carries core paymentId target args) :
      Next core (.agreed paymentId dialog) [.sent target args] (.sending args (some dialog.domain))
  | fail (phase : Phase) (error : JsString) (running : phase.Running) :
      Next core phase [.failed error] .idle
  | succeed (args : SendArgs) (domain : Option JsString) (tx : SentTx)
      (receiver : tx.address = args.toAddress) (same : tx.domain = domain) :
      Next core (.sending args domain) [.succeeded tx] .idle

theorem Next.short {core : Core} (phase : Phase) (entries : List Entry) (after : Phase)
    (allowed : Next core phase entries after) : entries.length ≤ 1 := by
  cases allowed <;> simp

/-! ### What has been done in a phase -/

/-- The target was read when its domain was looked up. -/
structure Named (target : Target) (domain : JsString) : Prop where
  address : ∃ address, target.address = some address ∧ 46 ∈ address ∧ domain = domainOf address

/-- The end of what has been done, for a submission that waits. -/
def Phase.Told (core : Core) (log : List Entry) : Phase → Prop
  | .requested paymentId => [.pressed paymentId] <:+ log
  | .looking paymentId domain => ∃ target, Named target domain ∧
      [.pressed paymentId, .lookedUp target domain] <:+ log
  | .asking paymentId dialog => ∃ target answer, Named target dialog.domain ∧
      Genuine core answer dialog ∧
      [.pressed paymentId, .lookedUp target dialog.domain, .asked answer dialog] <:+ log
  | .agreed paymentId dialog => ∃ target answer, Named target dialog.domain ∧
      Genuine core answer dialog ∧
      [.pressed paymentId, .lookedUp target dialog.domain, .asked answer dialog, .agreed] <:+ log
  | _ => True

section

variable {core : Core}

theorem suffix_snoc {done log : List Entry} (suffix : done <:+ log) (entry : Entry) :
    done ++ [entry] <:+ log ++ [entry] := by
  obtain ⟨front, rfl⟩ := suffix
  exact ⟨front, (List.append_assoc _ _ _).symm⟩

theorem told_of_trace {log : List Entry} {phase : Phase}
    (trace : Trace (Next core) .idle log phase) : phase.Told core log := by
  induction trace with
  | start => trivial
  | @step told entries middle final _ allowed inductionHypothesis =>
    cases allowed with
    | press paymentId => exact List.suffix_append _ _
    | lookUp paymentId target address read dotted =>
      exact ⟨target, ⟨address, read, dotted, rfl⟩, suffix_snoc inductionHypothesis _⟩
    | ask paymentId answer dialog genuine =>
      obtain ⟨target, named, suffix⟩ := inductionHypothesis
      exact ⟨target, answer, named, genuine, suffix_snoc suffix _⟩
    | agree paymentId dialog =>
      obtain ⟨target, answer, named, genuine, suffix⟩ := inductionHypothesis
      exact ⟨target, answer, named, genuine, suffix_snoc suffix _⟩
    | _ => trivial

/-- Steps that tell nothing lead nowhere, or to where nothing goes on. -/
theorem silent_trace {start final : Phase} {told : List Entry}
    (trace : Trace (Next core) start told final) (silent : told = []) :
    final = start ∨ final = .locked := by
  induction trace with
  | start => exact .inl rfl
  | step _ allowed _ =>
    obtain ⟨_, nothing⟩ := List.append_eq_nil_iff.mp silent
    subst nothing
    cases allowed
    exact .inr rfl

/-- Nothing follows an exception. -/
theorem locked_trace {final : Phase} {told : List Entry}
    (trace : Trace (Next core) .locked told final) : told = [] ∧ final = .locked := by
  induction trace with
  | start => exact ⟨rfl, rfl⟩
  | step _ allowed inductionHypothesis =>
    obtain ⟨rfl, rfl⟩ := inductionHypothesis
    cases allowed with
    | fail _ _ running => exact running.elim

/-! ### Calls of the core -/

/-- What the page has done when it calls the core. It was asked to send to an address that is one,
and sends there, or it was asked to send to a domain, and sends to the address of the record that
the user has agreed to. The amount is the one that stands in the target at the call. -/
inductive Justified (core : Core) (before : List Entry) (target : Target) (args : SendArgs) :
    Prop where
  | own (paymentId : Option JsString) (address : JsString)
      (asked : [.pressed paymentId] <:+ before) (read : target.address = some address)
      (plain : 46 ∉ address) (decodes : core.decodeAddress (some address) = .ok ())
      (receiver : args.toAddress = some address) (carries : Carries core paymentId target args)
  | agreed (paymentId : Option JsString) (named : Target) (answer : TxtAnswer) (dialog : Dialog)
      (domain : Named named dialog.domain) (genuine : Genuine core answer dialog)
      (asked : [.pressed paymentId, .lookedUp named dialog.domain, .asked answer dialog,
        .agreed] <:+ before)
      (receiver : args.toAddress = dialog.address) (carries : Carries core paymentId target args)

/-- The page has done nothing since, or the first thing was to report that the transaction has
failed or that it has been sent to the address. -/
inductive Reported (args : SendArgs) : List Entry → Prop where
  | waiting : Reported args []
  | failed (error : JsString) (rest : List Entry) : Reported args (.failed error :: rest)
  | succeeded (tx : SentTx) (rest : List Entry) (receiver : tx.address = args.toAddress) :
      Reported args (.succeeded tx :: rest)

theorem reported_of_trace {args : SendArgs} {domain : Option JsString} {final : Phase}
    {told : List Entry} (trace : Trace (Next core) (.sending args domain) told final) :
    Reported args told := by
  cases told with
  | nil => exact .waiting
  | cons entry rest =>
    have parts : entry :: rest = [] ++ entry :: rest := rfl
    obtain ⟨phase, reached, silent, allowed, _⟩ := trace.split Next.short parts
    rcases silent_trace silent rfl with rfl | rfl
    · cases allowed with
      | fail => exact .failed _ rest
      | succeed _ _ tx receiver => exact .succeeded tx rest receiver
    · cases allowed with
      | fail _ _ running => exact running.elim

theorem sent_of_trace {log before after : List Entry} {final : Phase} {target : Target}
    {args : SendArgs} (trace : Trace (Next core) .idle log final)
    (parts : log = before ++ .sent target args :: after) :
    Justified core before target args ∧ Reported args after := by
  obtain ⟨phase, reached, earlier, allowed, later⟩ := trace.split Next.short parts
  have told := told_of_trace earlier
  cases allowed with
  | sendOwn paymentId _ address _ read plain decodes receiver carries =>
    exact ⟨.own paymentId address told read plain decodes receiver carries,
      reported_of_trace later⟩
  | sendAgreed paymentId dialog _ _ receiver carries =>
    obtain ⟨named, answer, domain, genuine, asked⟩ := told
    exact ⟨.agreed paymentId named answer dialog domain genuine asked receiver carries,
      reported_of_trace later⟩

end

end LightWallet.Frontend.SendCoins
