/-
This file settles which transactions the service passes on to the daemon.

A submitted transaction is read from the digits of the request. It is refused when one of its
key images is among the inputs of the transactions in the mempool, as the service has last read
them. Inputs of other kinds have no key image, and the search goes past them.
-/

import Mathlib.Data.Set.Insert
import LightWallet.Login

namespace LightWallet

/-! ### Transactions that are submitted -/

/-- `crypto::key_image`. -/
abbrev KeyImage := Vector UInt8 32

/-- `txin_to_key`. -/
structure TxInToKey where
  amount : UInt64
  keyOffsets : List UInt64
  kImage : KeyImage
  deriving DecidableEq, Repr

/-- `txin_v`. -/
inductive TxIn where
  | gen (height : Nat)
  | toScript (prev : String) (prevout : Nat) (sigset : List UInt8)
  | toScripthash (prev : String) (prevout : Nat) (script sigset : List UInt8)
  | toKey (input : TxInToKey)
  deriving DecidableEq, Repr

/-- What is sent to the daemon. -/
structure SendRawTx where
  txAsHex : String
  doNotRelay : Bool
  deriving DecidableEq, Repr

/-- What the daemon answers. -/
structure SendRawTxResponse where
  status : String
  reason : String
  deriving DecidableEq, Repr

/-- What a submission uses of the libraries, of the configuration and of the daemon, which is told
whether it was reached. -/
structure Submitter where
  vin : Transaction → List TxIn
  parseHexstrToBinbuff : String → Option (List UInt8)
  parseAndValidateTxFromBlob : List UInt8 → Option Transaction
  sendRawTransaction : SendRawTx → Bool × SendRawTxResponse
  doNotRelay : Bool := false

section

variable (submitter : Submitter) (mempoolTxs : List (Nat × Transaction))

/-! ### The search in the mempool -/

/-- `get_key_images`. -/
def getKeyImages : List TxIn → List TxInToKey
  | [] => []
  | .toKey input :: rest => input :: getKeyImages rest
  | _ :: rest => getKeyImages rest

/-- The loop over the key images of one transaction. -/
def findInImages (kImage : KeyImage) : List TxInToKey → Bool
  | [] => false
  | mki :: rest => if mki.kImage = kImage then true else findInImages kImage rest

/-- The loop over the mempool, for one key image. -/
def findInTxs (kImage : KeyImage) : List (Nat × Transaction) → Bool
  | [] => false
  | mtx :: rest =>
    if findInImages kImage (getKeyImages (submitter.vin mtx.2)) then true
    else findInTxs kImage rest

/-- `find_key_images_in_mempool`. -/
def findKeyImagesInMempool : List TxIn → Bool
  | [] => false
  | .toKey input :: rest =>
    if findInTxs submitter input.kImage mempoolTxs then true else findKeyImagesInMempool rest
  | _ :: rest => findKeyImagesInMempool rest

/-! ### The submission -/

/-- `check_if_response_is_ok`: nothing, or what is wrong. -/
def checkIfResponseIsOk (res : SendRawTxResponse) : Option String :=
  if res.status = "BUSY" then some "Deamon is BUSY. Cant sent now. "
  else if res.status ≠ "OK" then some "RPC failed. "
  else none

/-- What `commit_tx` says when the daemon did not answer, or refused. -/
def commitError (answer : Bool × SendRawTxResponse) : Option String :=
  let failure := if answer.1 then checkIfResponseIsOk answer.2 else some ""
  failure.map fun message =>
    message ++ if answer.2.reason = "" then "Reason not given by daemon." else answer.2.reason

/-- A request ends with an answer, and what it has sent to the daemon on the way. -/
structure Submission where
  answer : Answer
  sent : List SendRawTx := []

/-- `commit_tx` and what comes behind it. -/
def commitTx (rawTxBlob : String) (tx : Transaction) : Submission :=
  let req : SendRawTx := ⟨rawTxBlob, submitter.doNotRelay⟩
  match commitError (submitter.sendRawTransaction req) with
  | some message => ⟨sessionCloseError .null message, [req]⟩
  | none => ⟨sessionClose (Json.null.set "tx_hash" (.str tx.hash)), [req]⟩

/-- `submit_raw_tx`, on a body that is JSON or is not. -/
def submitRawTx (body : Option Json) : Submission :=
  match body.bind fun request => (request.read "tx").asString? with
  | none => ⟨.escaped, []⟩
  | some rawTxBlob =>
    match submitter.parseHexstrToBinbuff rawTxBlob with
    | none => ⟨sessionCloseError .null "Tx faild parse_hexstr_to_binbuff", []⟩
    | some txBlob =>
      match submitter.parseAndValidateTxFromBlob txBlob with
      | none => ⟨sessionCloseError .null "Tx faild parse_and_validate_tx_from_blob", []⟩
      | some tx =>
        if findKeyImagesInMempool submitter mempoolTxs (submitter.vin tx) then
          ⟨sessionCloseError .null
            ("Tx uses your outputs that area already in the mempool. " ++
              "Please wait till your previous tx(s) get mined"), []⟩
        else commitTx submitter rawTxBlob tx

end

namespace Submission

/-! ### What is meant -/

/-- The key images of the inputs, whatever other inputs there are. -/
def keyImages (vin : List TxIn) : Set KeyImage :=
  { image | ∃ input, TxIn.toKey input ∈ vin ∧ input.kImage = image }

variable (submitter : Submitter) (mempoolTxs : List (Nat × Transaction))

/-- The key images of the inputs of the transactions in the mempool. -/
def mempoolKeyImages : Set KeyImage :=
  { image | ∃ entry ∈ mempoolTxs, image ∈ keyImages (submitter.vin entry.2) }

/-- The transaction that a request submits. -/
def submitted (body : Option Json) : Option Transaction := do
  let rawTxBlob ← body.bind fun request => (request.read "tx").asString?
  let txBlob ← submitter.parseHexstrToBinbuff rawTxBlob
  submitter.parseAndValidateTxFromBlob txBlob

/-- The text that a request submits. -/
def submittedText (body : Option Json) : String :=
  ((body.bind fun request => (request.read "tx").asString?)).getD ""

variable {submitter mempoolTxs}

/-! ### The search -/

theorem mem_getKeyImages {vin : List TxIn} {input : TxInToKey} :
    input ∈ getKeyImages vin ↔ TxIn.toKey input ∈ vin := by
  induction vin with
  | nil => simp [getKeyImages]
  | cons first rest inductionHypothesis =>
    cases first with
    | toKey other =>
      rw [getKeyImages, List.mem_cons, List.mem_cons, inductionHypothesis, TxIn.toKey.injEq]
    | gen height => simpa [getKeyImages] using inductionHypothesis
    | toScript prev prevout sigset => simpa [getKeyImages] using inductionHypothesis
    | toScripthash prev prevout script sigset =>
      simpa [getKeyImages] using inductionHypothesis

theorem findInImages_iff {kImage : KeyImage} {images : List TxInToKey} :
    findInImages kImage images = true ↔ ∃ mki ∈ images, mki.kImage = kImage := by
  induction images with
  | nil => simp [findInImages]
  | cons mki rest inductionHypothesis =>
    rw [findInImages]
    by_cases same : mki.kImage = kImage
    · rw [if_pos same]
      exact iff_of_true rfl ⟨mki, List.mem_cons_self, same⟩
    · rw [if_neg same, inductionHypothesis, List.exists_mem_cons_iff]
      exact (or_iff_right same).symm

theorem findInTxs_iff {kImage : KeyImage} :
    findInTxs submitter kImage mempoolTxs = true ↔
      kImage ∈ mempoolKeyImages submitter mempoolTxs := by
  have inside (mtx : Nat × Transaction) :
      findInImages kImage (getKeyImages (submitter.vin mtx.2)) = true ↔
        kImage ∈ keyImages (submitter.vin mtx.2) := by
    rw [findInImages_iff]
    exact exists_congr fun input => and_congr_left fun _ => mem_getKeyImages
  induction mempoolTxs with
  | nil =>
    refine iff_of_false Bool.false_ne_true ?_
    rintro ⟨entry, member, _⟩
    exact absurd member List.not_mem_nil
  | cons mtx rest inductionHypothesis =>
    rw [findInTxs]
    by_cases found : findInImages kImage (getKeyImages (submitter.vin mtx.2)) = true
    · rw [if_pos found]
      exact iff_of_true rfl ⟨mtx, List.mem_cons_self, (inside mtx).mp found⟩
    · rw [if_neg found]
      refine inductionHypothesis.trans ?_
      refine (Iff.trans (List.exists_mem_cons_iff _ mtx rest) (or_iff_right fun here => ?_)).symm
      exact found ((inside mtx).mpr here)

/-- An input of another kind adds nothing. -/
theorem keyImages_cons_of_ne {first : TxIn} {rest : List TxIn}
    (other : ∀ input, first ≠ .toKey input) : keyImages (first :: rest) = keyImages rest := by
  ext image
  refine exists_congr fun input => and_congr_left fun _ => ?_
  rw [List.mem_cons]
  exact or_iff_right fun same => other input same.symm

theorem keyImages_cons_toKey (input : TxInToKey) (rest : List TxIn) :
    keyImages (.toKey input :: rest) = insert input.kImage (keyImages rest) := by
  ext image
  rw [Set.mem_insert_iff]
  constructor
  · rintro ⟨other, member, rfl⟩
    rcases List.mem_cons.mp member with same | member
    · exact .inl (congrArg TxInToKey.kImage (TxIn.toKey.inj same))
    · exact .inr ⟨other, member, rfl⟩
  · rintro (rfl | ⟨other, member, rfl⟩)
    · exact ⟨input, List.mem_cons_self, rfl⟩
    · exact ⟨other, List.mem_cons_of_mem _ member, rfl⟩

theorem findKeyImagesInMempool_iff (vin : List TxIn) :
    findKeyImagesInMempool submitter mempoolTxs vin = true ↔
      (keyImages vin ∩ mempoolKeyImages submitter mempoolTxs).Nonempty := by
  induction vin with
  | nil =>
    rw [findKeyImagesInMempool]
    refine iff_of_false Bool.false_ne_true ?_
    rintro ⟨image, ⟨input, member, _⟩, _⟩
    exact absurd member List.not_mem_nil
  | cons first rest inductionHypothesis =>
    cases first with
    | toKey input =>
      rw [findKeyImagesInMempool, keyImages_cons_toKey]
      by_cases found : findInTxs submitter input.kImage mempoolTxs = true
      · rw [if_pos found]
        exact iff_of_true rfl ⟨input.kImage, Set.mem_insert _ _, findInTxs_iff.mp found⟩
      · rw [if_neg found, inductionHypothesis,
          Set.insert_inter_of_notMem fun member => found (findInTxs_iff.mpr member)]
    | gen height =>
      rw [findKeyImagesInMempool, inductionHypothesis, keyImages_cons_of_ne]
      all_goals rintro input ⟨⟩
    | toScript prev prevout sigset =>
      rw [findKeyImagesInMempool, inductionHypothesis, keyImages_cons_of_ne]
      all_goals rintro input ⟨⟩
    | toScripthash prev prevout script sigset =>
      rw [findKeyImagesInMempool, inductionHypothesis, keyImages_cons_of_ne]
      all_goals rintro input ⟨⟩

/-! ### What is passed on -/

theorem commitTx_sent (rawTxBlob : String) (tx : Transaction) :
    (commitTx submitter rawTxBlob tx).sent = [⟨rawTxBlob, submitter.doNotRelay⟩] := by
  unfold commitTx
  dsimp only
  split <;> rfl

/-- What is no transaction is not passed on. -/
theorem sent_of_not_submitted {body : Option Json} (nothing : submitted submitter body = none) :
    (submitRawTx submitter mempoolTxs body).sent = [] := by
  unfold submitted at nothing
  unfold submitRawTx
  cases text : body.bind fun request => (request.read "tx").asString? with
  | none => rfl
  | some rawTxBlob =>
    rw [text, Option.bind_eq_bind, Option.bind_some] at nothing
    cases blob : submitter.parseHexstrToBinbuff rawTxBlob with
    | none => simp only [blob]
    | some txBlob =>
      rw [blob, Option.bind_eq_bind, Option.bind_some] at nothing
      simp only [blob, nothing]

theorem submitRawTx_of_submitted {body : Option Json} {tx : Transaction}
    (read : submitted submitter body = some tx) :
    submitRawTx submitter mempoolTxs body =
      if findKeyImagesInMempool submitter mempoolTxs (submitter.vin tx) then
        ⟨sessionCloseError .null
          ("Tx uses your outputs that area already in the mempool. " ++
            "Please wait till your previous tx(s) get mined"), []⟩
      else commitTx submitter (submittedText body) tx := by
  unfold submitted at read
  unfold submitRawTx submittedText
  cases text : body.bind fun request => (request.read "tx").asString? with
  | none => simp [text] at read
  | some rawTxBlob =>
    rw [text, Option.bind_eq_bind, Option.bind_some] at read
    cases blob : submitter.parseHexstrToBinbuff rawTxBlob with
    | none => simp [blob] at read
    | some txBlob =>
      rw [blob, Option.bind_eq_bind, Option.bind_some] at read
      simp only [blob, read, Option.getD_some]

/-- What is sent to the daemon is the text of the request, the transaction of which has no key
image that is in the mempool. The search finds one exactly if there is one, and a transaction
without such a key image is sent. -/
theorem submitRawTx_guarded (submitter : Submitter) (mempoolTxs : List (Nat × Transaction)) :
    (∀ vin : List TxIn, findKeyImagesInMempool submitter mempoolTxs vin = true ↔
      (keyImages vin ∩ mempoolKeyImages submitter mempoolTxs).Nonempty) ∧
    ∀ (body : Option Json) (request : SendRawTx),
      request ∈ (submitRawTx submitter mempoolTxs body).sent ↔
        request = ⟨submittedText body, submitter.doNotRelay⟩ ∧
          ∃ tx, submitted submitter body = some tx ∧
            keyImages (submitter.vin tx) ∩ mempoolKeyImages submitter mempoolTxs = ∅ := by
  refine ⟨findKeyImagesInMempool_iff, fun body request => ?_⟩
  cases read : submitted submitter body with
  | none =>
    rw [sent_of_not_submitted read]
    refine iff_of_false List.not_mem_nil ?_
    rintro ⟨_, tx, impossible, _⟩
    cases impossible
  | some tx =>
    have found := @findKeyImagesInMempool_iff submitter mempoolTxs (submitter.vin tx)
    rw [submitRawTx_of_submitted read]
    by_cases double : findKeyImagesInMempool submitter mempoolTxs (submitter.vin tx) = true
    · rw [if_pos double]
      refine iff_of_false List.not_mem_nil ?_
      rintro ⟨_, other, same, disjoint⟩
      cases same
      exact (found.mp double).ne_empty disjoint
    · have disjoint : keyImages (submitter.vin tx) ∩ mempoolKeyImages submitter mempoolTxs = ∅ :=
        Set.not_nonempty_iff_eq_empty.mp (mt found.mpr double)
      rw [if_neg double, commitTx_sent, List.mem_singleton]
      exact (and_iff_left ⟨tx, rfl, disjoint⟩).symm

end Submission

end LightWallet
