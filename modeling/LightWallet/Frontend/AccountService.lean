/-
This file models the session that the wallet's page keeps, and what logins, logouts
and the server's answers make of it.

A login first ends the session there is, checks what it was given, and asks the server.
The answer finds whatever session there is when it arrives. Two ways of refusing a login
do not undo what it has set, and an answer does not ask whose session it is about to end
or to mark.
-/

import LightWallet.Runs
import LightWallet.Frontend.Keys

namespace LightWallet.Frontend.AccountService

open CnUtil

/-! ### The service -/

/-- `private_keys` of the service. -/
structure PrivateKeys where
  view : JsString
  spend : JsString
deriving DecidableEq

/-- The variables of the service. `key_images` maps the strings it is indexed with. -/
structure Service where
  publicAddress : JsString := []
  accountSeed : JsString := []
  publicKeys : Option DecodedAddress := none
  privateKeys : Option PrivateKeys := none
  keyImages : List (JsString × JsString) := []
  loggedIn : Bool := false
  viewOnly : Bool := false
  accountImported : Bool := false
deriving DecidableEq

/-- `logout`. -/
def logout (service : Service) : Service :=
  { service with
    publicAddress := []
    accountSeed := []
    publicKeys := none
    privateKeys := none
    keyImages := []
    loggedIn := false
    accountImported := false
    viewOnly := false }

/-- What `login` is called with. Any of it may be left out. -/
structure Credentials where
  address : Option JsString := none
  viewKey : Option JsString := none
  spendKey : Option JsString := none
  seed : Option JsString := none
  generatedAccount : Option Bool := none
deriving DecidableEq

/-- What has become of a login: its promise waits, is resolved or is rejected, or there is none
since an exception was thrown. -/
inductive Outcome where
  | pending
  | resolved
  | rejected (reason : String)
  | thrown (error : String)
deriving DecidableEq

/-- The keys are too short or too long; without a spend key only the view key is looked at. -/
def InvalidLength (viewKey spendKey : JsString) : Prop :=
  viewKey.length ≠ 64 ∨ (spendKey ≠ [] ∧ spendKey.length ≠ 64)

/-- The keys have characters that are no hexadecimal digits. -/
def InvalidHex (viewKey spendKey : JsString) : Prop :=
  !validHex viewKey ∨ (spendKey ≠ [] ∧ !validHex spendKey)

instance (viewKey spendKey : JsString) : Decidable (InvalidLength viewKey spendKey) :=
  inferInstanceAs (Decidable (_ ∨ _))

instance (viewKey spendKey : JsString) : Decidable (InvalidHex viewKey spendKey) :=
  inferInstanceAs (Decidable (_ ∨ _))

section

variable (nettype : Nat) (primitives : Primitives)

/-- `decode_address` of what may be left out. -/
def readAddress : Option JsString → Except String DecodedAddress
  | none => throw "undefined is not a string"
  | some address => decodeAddress nettype primitives.keccak256 address

/-- `expected_spend_pub`, which stays undefined when a spend key of the wrong length was given. -/
def expectedSpendPub (spendKey : JsString) : Except String (Option JsString) :=
  if spendKey.length = 64 then some <$> secKeyToPub primitives spendKey else pure none

/-- The keys of an address against the keys given, which are not asked for in a subaddress: the
reason to refuse the login, or none. -/
def checkKeys (address viewKey spendKey : JsString) (publicKeys : DecodedAddress) :
    Except String (Option String) := do
  let subaddress ← isSubaddress nettype address
  if subaddress then pure none
  else
    let expectedViewPub ← secKeyToPub primitives viewKey
    let expectedSpendPub ← expectedSpendPub primitives spendKey
    pure (if publicKeys.view ≠ expectedViewPub then some "invalid view key"
      else if spendKey ≠ [] ∧ some publicKeys.spend ≠ expectedSpendPub then
        some "invalid spend key"
      else none)

/-- The account of a seed is the account of these keys and this address. -/
def SameAccount (expected : AccountKeys) (viewKey spendKey address : JsString) : Prop :=
  expected.view.sec = viewKey ∧ expected.spend.sec = spendKey ∧ expected.publicAddr = address

instance (expected : AccountKeys) (viewKey spendKey address : JsString) :
    Decidable (SameAccount expected viewKey spendKey address) :=
  inferInstanceAs (Decidable (_ ∧ _))

/-- Whether a seed that was given is the seed of the keys. -/
def checkSeed (seed viewKey spendKey address : JsString) : Except String Bool :=
  if seed = [] then pure true
  else do
    let expected ← createAddress nettype primitives seed
    pure (decide (SameAccount expected viewKey spendKey address))

/-- `login`, up to the request to the server. -/
def login (service : Service) (credentials : Credentials) : Service × Outcome :=
  let viewKey := credentials.viewKey.getD []
  let spendKey := credentials.spendKey.getD []
  let address := credentials.address.getD []
  let seed := credentials.seed.getD []
  let service := { logout service with viewOnly := decide (spendKey = []) }
  if InvalidLength viewKey spendKey then (service, .rejected "invalid secret key length")
  else if InvalidHex viewKey spendKey then (service, .rejected "invalid hex formatting")
  else match readAddress nettype primitives credentials.address with
  | .error _ => (service, .rejected "invalid address")
  | .ok publicKeys =>
    let service := { service with publicKeys := some publicKeys }
    match checkKeys nettype primitives address viewKey spendKey publicKeys with
    | .error error => (service, .thrown error)
    | .ok (some reason) => (logout service, .rejected reason)
    | .ok none =>
      let service :=
        { service with publicAddress := address, privateKeys := some ⟨viewKey, spendKey⟩ }
      match checkSeed nettype primitives seed viewKey spendKey address with
      | .error error => (service, .thrown error)
      | .ok false => (service, .rejected "invalid seed")
      | .ok true => ({ service with accountSeed := seed, loggedIn := true }, .pending)

/-- What comes of the request of a login: the server refuses it or accepts it and tells if the
account is new, or there is no answer, perhaps with a text that says why. -/
inductive Answer where
  | error (reason : String)
  | success (newAddress : Bool)
  | failure (error : Option String)
deriving DecidableEq

/-- The callbacks of the request in `login`. -/
def receive (generatedAccount : Bool) (service : Service) : Answer → Service × Outcome
  | .error reason => (logout service, .rejected reason)
  | .success newAddress =>
    ({ service with accountImported := !generatedAccount && newAddress }, .resolved)
  | .failure error => (logout service, .rejected (error.getD "server error"))

/-- The string that `cachedKeyImage` looks up. -/
def cacheIndex (service : Service) (txPubKey : JsString) (outIndex : Nat) : JsString :=
  txPubKey ++ [58] ++ service.publicAddress ++ [58] ++ toString10 outIndex

/-- `generate_key_image` with the keys of the service, which throws where there are none. -/
def ownKeyImage (service : Service) (txPubKey : JsString) (outIndex : Nat) :
    Except String JsString :=
  match service.privateKeys, service.publicKeys with
  | some privateKeys, some publicKeys =>
    generateKeyImage primitives txPubKey privateKeys.view publicKeys.spend privateKeys.spend
      outIndex
  | _, _ => throw "undefined is not a string"

/-- `cachedKeyImage`. -/
def cachedKeyImage (service : Service) (txPubKey : JsString) (outIndex : Nat) :
    Except String (Service × JsString) :=
  match service.keyImages.lookup (cacheIndex service txPubKey outIndex) with
  | some (unit :: image) => pure (service, unit :: image)
  | _ => do
    let image ← ownKeyImage primitives service txPubKey outIndex
    pure ({ service with
      keyImages := (cacheIndex service txPubKey outIndex, image) :: service.keyImages }, image)

/-- The service after `cachedKeyImage`, which may throw but does not change it then. -/
def afterKeyImage (service : Service) (txPubKey : JsString) (outIndex : Nat) : Service :=
  match cachedKeyImage primitives service txPubKey outIndex with
  | .error _ => service
  | .ok (next, _) => next

/-! ### Runs -/

/-- A call of `login`: how it marks an account that is new, and what has become of it. -/
structure Attempt where
  generatedAccount : Bool
  outcome : Outcome
deriving DecidableEq

/-- The service and the calls of `login` so far, the earliest first. -/
structure World where
  service : Service := {}
  attempts : List Attempt := []
deriving DecidableEq

/-- The page calls a function of the service, or the request of the call of `login` with the given
index is answered. -/
inductive Event where
  | login (credentials : Credentials)
  | logout
  | reply (index : Nat) (answer : Answer)
  | keyImage (txPubKey : JsString) (outIndex : Nat)
deriving DecidableEq

/-- A request is answered once, and only if it was made. -/
def reply (world : World) (index : Nat) (answer : Answer) : World :=
  match world.attempts[index]? with
  | some ⟨generatedAccount, .pending⟩ =>
    let (service, outcome) := receive generatedAccount world.service answer
    ⟨service, world.attempts.set index ⟨generatedAccount, outcome⟩⟩
  | _ => world

/-- What an event does to the service and the attempts to log in. -/
def step (world : World) : Event → World
  | .login credentials =>
    let (service, outcome) := login nettype primitives world.service credentials
    ⟨service, world.attempts ++ [⟨credentials.generatedAccount.getD false, outcome⟩]⟩
  | .logout => { world with service := logout world.service }
  | .reply index answer => reply world index answer
  | .keyImage txPubKey outIndex =>
    { world with service := afterKeyImage primitives world.service txPubKey outIndex }

end

/-! ### What a login can do -/

section

variable {nettype : Nat} {primitives : Primitives}

/-- The keys of the address are those of the keys given, or the address is a subaddress. -/
def KeysMatch (nettype : Nat) (primitives : Primitives) (credentials : Credentials)
    (publicKeys : DecodedAddress) : Prop :=
  isSubaddress nettype (credentials.address.getD []) = .ok true ∨
    (secKeyToPub primitives (credentials.viewKey.getD []) = .ok publicKeys.view ∧
      (credentials.spendKey.getD [] = [] ∨
        secKeyToPub primitives (credentials.spendKey.getD []) = .ok publicKeys.spend))

/-- The keys have the form of keys, and the address is one, of these public keys. -/
structure WellFormed (nettype : Nat) (primitives : Primitives) (credentials : Credentials)
    (publicKeys : DecodedAddress) : Prop where
  length : ¬ InvalidLength (credentials.viewKey.getD []) (credentials.spendKey.getD [])
  hex : ¬ InvalidHex (credentials.viewKey.getD []) (credentials.spendKey.getD [])
  address : readAddress nettype primitives credentials.address = .ok publicKeys

/-- The service as it is when the seed is looked at. -/
def opened (service : Service) (credentials : Credentials) (publicKeys : DecodedAddress) :
    Service :=
  { logout service with
    viewOnly := decide (credentials.spendKey.getD [] = [])
    publicKeys := some publicKeys
    publicAddress := credentials.address.getD []
    privateKeys := some ⟨credentials.viewKey.getD [], credentials.spendKey.getD []⟩ }

/-- All that a login can do before the server answers. -/
inductive LoginCase (nettype : Nat) (primitives : Primitives) (service : Service)
    (credentials : Credentials) : Service × Outcome → Prop where
  | malformed (reason : String)
      (wrong : ∀ publicKeys, ¬ WellFormed nettype primitives credentials publicKeys) :
      LoginCase nettype primitives service credentials
        ({ logout service with viewOnly := decide (credentials.spendKey.getD [] = []) },
          .rejected reason)
  | mismatch (reason : String) (publicKeys : DecodedAddress)
      (formed : WellFormed nettype primitives credentials publicKeys)
      (differ : ¬ KeysMatch nettype primitives credentials publicKeys) :
      LoginCase nettype primitives service credentials (logout service, .rejected reason)
  | thrown (error : String) (publicKeys : DecodedAddress)
      (formed : WellFormed nettype primitives credentials publicKeys)
      (matching : KeysMatch nettype primitives credentials publicKeys)
      (seed : checkSeed nettype primitives (credentials.seed.getD [])
        (credentials.viewKey.getD []) (credentials.spendKey.getD [])
        (credentials.address.getD []) = .error error) :
      LoginCase nettype primitives service credentials
        (opened service credentials publicKeys, .thrown error)
  | wrongSeed (publicKeys : DecodedAddress)
      (formed : WellFormed nettype primitives credentials publicKeys)
      (matching : KeysMatch nettype primitives credentials publicKeys)
      (seed : checkSeed nettype primitives (credentials.seed.getD [])
        (credentials.viewKey.getD []) (credentials.spendKey.getD [])
        (credentials.address.getD []) = .ok false) :
      LoginCase nettype primitives service credentials
        (opened service credentials publicKeys, .rejected "invalid seed")
  | started (publicKeys : DecodedAddress)
      (formed : WellFormed nettype primitives credentials publicKeys)
      (matching : KeysMatch nettype primitives credentials publicKeys)
      (seed : checkSeed nettype primitives (credentials.seed.getD [])
        (credentials.viewKey.getD []) (credentials.spendKey.getD [])
        (credentials.address.getD []) = .ok true) :
      LoginCase nettype primitives service credentials
        ({ opened service credentials publicKeys with
            accountSeed := credentials.seed.getD [], loggedIn := true }, .pending)

theorem expectedSpendPub_isOk {spendKey : JsString}
    (length : ¬ (spendKey ≠ [] ∧ spendKey.length ≠ 64)) :
    ∃ expected, expectedSpendPub primitives spendKey = .ok expected ∧
      (spendKey ≠ [] → ∀ pub, some pub = expected ↔ secKeyToPub primitives spendKey = .ok pub) := by
  unfold expectedSpendPub
  by_cases whole : spendKey.length = 64
  · obtain ⟨pub, made⟩ := @secKeyToPub_isOk primitives _ whole
    rw [if_pos whole, made]
    refine ⟨some pub, rfl, fun _ other => ?_⟩
    rw [Option.some.injEq, Except.ok.injEq, eq_comm]
  · rw [if_neg whole]
    exact ⟨none, rfl, fun given => absurd ⟨given, whole⟩ length⟩

/-- The keys of a well-formed login are compared without an exception. -/
theorem checkKeys_of_wellFormed {credentials : Credentials} {publicKeys : DecodedAddress}
    (formed : WellFormed nettype primitives credentials publicKeys) :
    ∃ verdict, checkKeys nettype primitives (credentials.address.getD [])
        (credentials.viewKey.getD []) (credentials.spendKey.getD []) publicKeys = .ok verdict ∧
      (verdict = none ↔ KeysMatch nettype primitives credentials publicKeys) := by
  obtain ⟨viewLength, spendLength⟩ := not_or.mp formed.length
  obtain ⟨view, viewPub⟩ := @secKeyToPub_isOk primitives _ (not_not.mp viewLength)
  obtain ⟨expected, spendPub, spendSame⟩ := @expectedSpendPub_isOk primitives _ spendLength
  have sub : ∃ sub, isSubaddress nettype (credentials.address.getD []) = .ok sub := by
    have read := formed.address
    cases given : credentials.address with
    | none =>
      rw [given] at read
      cases read
    | some address =>
      rw [given] at read
      exact isSubaddress_isOk read
  obtain ⟨sub, kind⟩ := sub
  unfold checkKeys KeysMatch
  rw [kind, viewPub, spendPub]
  cases sub with
  | true => exact ⟨none, rfl, iff_of_true rfl (.inl rfl)⟩
  | false =>
    refine ⟨_, rfl, ?_⟩
    have notSub : ¬ (Except.ok false : Except String Bool) = .ok true := by simp
    rw [or_iff_right notSub, Except.ok.injEq]
    by_cases sameView : publicKeys.view = view
    · rw [if_neg (not_not_intro sameView), and_iff_right sameView.symm]
      by_cases given : credentials.spendKey.getD [] = []
      · exact iff_of_true (if_neg fun wrong => wrong.1 given) (.inl given)
      · rw [or_iff_right given, ← spendSame given]
        by_cases sameSpend : some publicKeys.spend = expected
        · exact iff_of_true (if_neg fun wrong => wrong.2 sameSpend) sameSpend
        · rw [if_pos ⟨given, sameSpend⟩]
          exact iff_of_false (by simp) sameSpend
    · rw [if_pos sameView]
      exact iff_of_false (by simp) fun matching => sameView matching.1.symm

theorem login_case (service : Service) (credentials : Credentials) :
    LoginCase nettype primitives service credentials
      (login nettype primitives service credentials) := by
  unfold login
  by_cases length : InvalidLength (credentials.viewKey.getD []) (credentials.spendKey.getD [])
  · simp only [if_pos length]
    exact .malformed _ fun _ formed => formed.length length
  · by_cases hex : InvalidHex (credentials.viewKey.getD []) (credentials.spendKey.getD [])
    · simp only [if_neg length, if_pos hex]
      exact .malformed _ fun _ formed => formed.hex hex
    · simp only [if_neg length, if_neg hex]
      cases read : readAddress nettype primitives credentials.address with
      | error error =>
        refine .malformed _ fun publicKeys formed => ?_
        have readable := formed.address
        rw [read] at readable
        cases readable
      | ok publicKeys =>
        have formed : WellFormed nettype primitives credentials publicKeys := ⟨length, hex, read⟩
        obtain ⟨verdict, checked, same⟩ := checkKeys_of_wellFormed formed
        simp only [checked]
        cases verdict with
        | some reason =>
          exact .mismatch _ publicKeys formed fun matching => by cases same.mpr matching
        | none =>
          cases seed : checkSeed nettype primitives (credentials.seed.getD [])
              (credentials.viewKey.getD []) (credentials.spendKey.getD [])
              (credentials.address.getD []) with
          | error error => exact .thrown _ publicKeys formed (same.mp rfl) seed
          | ok agrees =>
            cases agrees with
            | false => exact .wrongSeed publicKeys formed (same.mp rfl) seed
            | true => exact .started publicKeys formed (same.mp rfl) seed

/-! ### Rejected logins -/

/-- What logging out leaves of a session: no address, seed or keys, not logged in and not marked as
of a view key only. -/
structure Cleared (service : Service) : Prop where
  publicAddress : service.publicAddress = []
  accountSeed : service.accountSeed = []
  publicKeys : service.publicKeys = none
  privateKeys : service.privateKeys = none
  loggedIn : service.loggedIn = false
  viewOnly : service.viewOnly = false

theorem cleared_logout (service : Service) : Cleared (logout service) :=
  ⟨rfl, rfl, rfl, rfl, rfl, rfl⟩

/-- Without a spend key, the login is refused for the form of the view key or of the address. -/
def Unfinished (nettype : Nat) (primitives : Primitives) (credentials : Credentials) : Prop :=
  credentials.spendKey.getD [] = [] ∧
    ∀ publicKeys, ¬ WellFormed nettype primitives credentials publicKeys

/-- The keys are those of the address, but a seed is given that is the seed of other keys. -/
def WrongSeed (nettype : Nat) (primitives : Primitives) (credentials : Credentials) : Prop :=
  credentials.seed.getD [] ≠ [] ∧ ∃ publicKeys expected,
    WellFormed nettype primitives credentials publicKeys ∧
    KeysMatch nettype primitives credentials publicKeys ∧
    createAddress nettype primitives (credentials.seed.getD []) = .ok expected ∧
    ¬ SameAccount expected (credentials.viewKey.getD []) (credentials.spendKey.getD [])
      (credentials.address.getD [])

theorem WellFormed.unique {credentials : Credentials} {first second : DecodedAddress}
    (formed : WellFormed nettype primitives credentials first)
    (other : WellFormed nettype primitives credentials second) : first = second :=
  Except.ok.inj (formed.address.symm.trans other.address)

theorem checkSeed_eq_false_iff {seed viewKey spendKey address : JsString} :
    checkSeed nettype primitives seed viewKey spendKey address = .ok false ↔
      seed ≠ [] ∧ ∃ expected, createAddress nettype primitives seed = .ok expected ∧
        ¬ SameAccount expected viewKey spendKey address := by
  unfold checkSeed
  by_cases given : seed = []
  · rw [if_pos given]
    exact iff_of_false (by simp [pure, Except.pure]) fun wrong => wrong.1 given
  · rw [if_neg given, Blocks.bind_eq_ok_iff, and_iff_right given]
    refine exists_congr fun expected => and_congr_right fun _ => ?_
    show Except.ok _ = _ ↔ _
    rw [Except.ok.injEq, decide_eq_false_iff_not]

/-- The two ways in which a login is rejected and leaves something behind. -/
theorem login_clears_iff (service : Service) (credentials : Credentials) :
    ((∃ reason, (login nettype primitives service credentials).2 = .rejected reason) →
        Cleared (login nettype primitives service credentials).1) ↔
      ¬ Unfinished nettype primitives credentials ∧
        ¬ WrongSeed nettype primitives credentials := by
  have cases := @login_case nettype primitives service credentials
  generalize login nettype primitives service credentials = result at cases
  cases cases with
  | malformed reason wrong =>
    have seed : ¬ WrongSeed nettype primitives credentials :=
      fun ⟨_, publicKeys, _, formed, _⟩ => wrong publicKeys formed
    rw [and_iff_left seed]
    constructor
    · rintro cleared ⟨empty, _⟩
      have view := (cleared ⟨reason, rfl⟩).viewOnly
      exact of_decide_eq_false view empty
    · exact fun finished _ =>
        ⟨rfl, rfl, rfl, rfl, rfl, decide_eq_false fun empty => finished ⟨empty, wrong⟩⟩
  | mismatch reason publicKeys formed differ =>
    refine iff_of_true (fun _ => cleared_logout service)
      ⟨fun wrong => wrong.2 publicKeys formed, ?_⟩
    rintro ⟨_, others, _, otherFormed, matching, _⟩
    exact differ (formed.unique otherFormed ▸ matching)
  | thrown error publicKeys formed matching seed =>
    refine iff_of_true (fun ⟨_, rejected⟩ => by cases rejected)
      ⟨fun wrong => wrong.2 publicKeys formed, ?_⟩
    rintro ⟨given, _, expected, _, _, created, differ⟩
    rw [checkSeed_eq_false_iff.mpr ⟨given, expected, created, differ⟩] at seed
    cases seed
  | wrongSeed publicKeys formed matching seed =>
    obtain ⟨given, expected, created, differ⟩ := checkSeed_eq_false_iff.mp seed
    refine iff_of_false (fun cleared => ?_) fun fine =>
      fine.2 ⟨given, publicKeys, expected, formed, matching, created, differ⟩
    have keys := (cleared ⟨_, rfl⟩).privateKeys
    cases keys
  | started publicKeys formed matching seed =>
    refine iff_of_true (fun ⟨_, rejected⟩ => by cases rejected)
      ⟨fun wrong => wrong.2 publicKeys formed, ?_⟩
    rintro ⟨given, _, expected, _, _, created, differ⟩
    rw [checkSeed_eq_false_iff.mpr ⟨given, expected, created, differ⟩] at seed
    cases seed

/-! ### Answers -/

/-- An answer that finds its request waiting is taken; any other changes nothing. -/
theorem reply_cases (world : World) (index : Nat) (answer : Answer) :
    (∃ generatedAccount, world.attempts[index]? = some ⟨generatedAccount, .pending⟩ ∧
      reply world index answer =
        ⟨(receive generatedAccount world.service answer).1,
          world.attempts.set index
            ⟨generatedAccount, (receive generatedAccount world.service answer).2⟩⟩) ∨
    ((∀ generatedAccount, world.attempts[index]? ≠ some ⟨generatedAccount, .pending⟩) ∧
      reply world index answer = world) := by
  unfold reply
  split
  · exact .inl ⟨_, ‹_›, rfl⟩
  · exact .inr ⟨fun generatedAccount waiting => by simp_all, rfl⟩

/-- The latest call of `login` after an answer is the one that was answered, or as it was. -/
theorem getLast?_set {attempts : List Attempt} {index : Nat} {answered attempt : Attempt}
    (latest : (attempts.set index answered).getLast? = some attempt) :
    attempt = answered ∨ attempts.getLast? = some attempt := by
  rw [List.getLast?_eq_getElem?, List.length_set, List.getElem?_set] at latest
  split at latest
  · split at latest
    · exact .inl (Option.some.inj latest).symm
    · cases latest
  · rw [← List.getLast?_eq_getElem?] at latest
    exact .inr latest

theorem keyImages_cachedKeyImage {service next : Service} {txPubKey image : JsString}
    {outIndex : Nat}
    (cached : cachedKeyImage primitives service txPubKey outIndex = .ok (next, image)) :
    ∃ keyImages, next = { service with keyImages := keyImages } := by
  unfold cachedKeyImage at cached
  split at cached
  · cases cached
    exact ⟨_, rfl⟩
  · obtain ⟨made, _, done⟩ := Blocks.bind_eq_ok_iff.mp cached
    cases done
    exact ⟨_, rfl⟩

/-- Asking for the image of a key touches nothing but the images. -/
theorem exists_afterKeyImage (service : Service) (txPubKey : JsString) (outIndex : Nat) :
    ∃ keyImages, afterKeyImage primitives service txPubKey outIndex =
      { service with keyImages := keyImages } := by
  unfold afterKeyImage
  split
  · exact ⟨service.keyImages, rfl⟩
  · exact keyImages_cachedKeyImage ‹_›

/-- The latest call of `login` was rejected. -/
def LatestRejected (world : World) : Prop :=
  ∃ attempt reason, world.attempts.getLast? = some attempt ∧ attempt.outcome = .rejected reason

/-- Where the latest login was rejected, the service is as logging out leaves it. -/
def RejectedCleared (world : World) : Prop := LatestRejected world → Cleared world.service

/-- A call of `login` that is rejected without being undone is the only thing that makes the
service keep something of a rejected login. -/
def ClearsRejected (nettype : Nat) (primitives : Primitives) (_ : World) : Event → Prop
  | .login credentials =>
    ¬ Unfinished nettype primitives credentials ∧ ¬ WrongSeed nettype primitives credentials
  | _ => True

theorem rejectedCleared_step_iff {world : World} (holds : RejectedCleared world) (event : Event) :
    RejectedCleared (step nettype primitives world event) ↔
      ClearsRejected nettype primitives world event := by
  cases event with
  | login credentials =>
    show _ ↔ _ ∧ _
    rw [← login_clears_iff world.service credentials]
    refine imp_congr ?_ Iff.rfl
    show (∃ attempt reason, (_ ++ [_]).getLast? = some attempt ∧ _) ↔ _
    rw [List.getLast?_concat]
    constructor
    · rintro ⟨attempt, reason, latest, rejected⟩
      cases latest
      exact ⟨reason, rejected⟩
    · exact fun ⟨reason, rejected⟩ => ⟨_, reason, rfl, rejected⟩
  | logout => exact iff_of_true (fun _ => cleared_logout world.service) trivial
  | reply index answer =>
    refine iff_of_true ?_ trivial
    show RejectedCleared (reply world index answer)
    rcases reply_cases world index answer with ⟨generatedAccount, waiting, taken⟩ | ⟨_, ignored⟩
    · rw [taken]
      cases answer with
      | error reason => exact fun _ => cleared_logout world.service
      | failure error => exact fun _ => cleared_logout world.service
      | success newAddress =>
        rintro ⟨attempt, reason, latest, rejected⟩
        -- The answered call is resolved, so that the rejected one is another.
        rcases getLast?_set latest with rfl | before
        · cases rejected
        · have cleared := holds ⟨attempt, reason, before, rejected⟩
          exact ⟨cleared.publicAddress, cleared.accountSeed, cleared.publicKeys,
            cleared.privateKeys, cleared.loggedIn, cleared.viewOnly⟩
    · rw [ignored]
      exact holds
  | keyImage txPubKey outIndex =>
    refine iff_of_true (fun rejected => ?_) trivial
    obtain ⟨keyImages, same⟩ := @exists_afterKeyImage primitives world.service txPubKey outIndex
    show Cleared (afterKeyImage primitives world.service txPubKey outIndex)
    rw [same]
    have cleared := holds rejected
    exact ⟨cleared.publicAddress, cleared.accountSeed, cleared.publicKeys, cleared.privateKeys,
      cleared.loggedIn, cleared.viewOnly⟩

/-- An answer to an earlier call of `login` neither ends nor marks the session there is. -/
def KeepsSession (world : World) : Event → Prop
  | .reply index answer =>
    index + 1 < world.attempts.length → world.service.loggedIn = true →
      (reply world index answer).service.loggedIn = true ∧
      (reply world index answer).service.accountImported = world.service.accountImported
  | _ => True

/-- While there is a session, a request of an earlier login that still waits is answered with
success, and with the mark that the session already has. -/
def LateSuccess (world : World) : Event → Prop
  | .reply index answer =>
    index + 1 < world.attempts.length → world.service.loggedIn = true →
      ∀ generatedAccount, world.attempts[index]? = some ⟨generatedAccount, .pending⟩ →
        ∃ newAddress, answer = .success newAddress ∧
          (!generatedAccount && newAddress) = world.service.accountImported
  | _ => True

theorem keepsSession_iff (world : World) (event : Event) :
    KeepsSession world event ↔ LateSuccess world event := by
  cases event with
  | login credentials => exact Iff.rfl
  | logout => exact Iff.rfl
  | keyImage txPubKey outIndex => exact Iff.rfl
  | reply index answer =>
    refine imp_congr_right fun earlier => imp_congr_right fun session => ?_
    rcases reply_cases world index answer with
      ⟨generatedAccount, waiting, taken⟩ | ⟨none, ignored⟩
    · rw [taken]
      constructor
      · rintro ⟨kept, mark⟩ other otherWaiting
        rw [waiting] at otherWaiting
        cases otherWaiting
        cases answer with
        | error reason => cases kept
        | failure error => cases kept
        | success newAddress => exact ⟨newAddress, rfl, mark⟩
      · intro late
        obtain ⟨newAddress, rfl, mark⟩ := late generatedAccount waiting
        exact ⟨session, mark⟩
    · rw [ignored]
      exact iff_of_true ⟨session, rfl⟩ fun other otherWaiting => absurd otherWaiting (none other)

/-- If there is a session, it is that of the latest call of `login`, whose request waits or was
answered with success. -/
def SessionOfLatest (world : World) : Prop :=
  world.service.loggedIn = true → ∃ attempt, world.attempts.getLast? = some attempt ∧
    (attempt.outcome = .pending ∨ attempt.outcome = .resolved)

theorem sessionOfLatest_step {world : World} (holds : SessionOfLatest world) (event : Event) :
    SessionOfLatest (step nettype primitives world event) := by
  cases event with
  | login credentials =>
    intro session
    refine ⟨_, List.getLast?_concat, .inl ?_⟩
    have cases := @login_case nettype primitives world.service credentials
    have session : (login nettype primitives world.service credentials).1.loggedIn = true := session
    show (login nettype primitives world.service credentials).2 = .pending
    generalize login nettype primitives world.service credentials = result at cases session
    cases cases with
    | malformed => cases session
    | mismatch => cases session
    | thrown => cases session
    | wrongSeed => cases session
    | started => rfl
  | logout => exact fun session => by cases session
  | reply index answer =>
    show SessionOfLatest (reply world index answer)
    rcases reply_cases world index answer with ⟨generatedAccount, waiting, taken⟩ | ⟨_, ignored⟩
    · rw [taken]
      cases answer with
      | error reason => exact fun session => by cases session
      | failure error => exact fun session => by cases session
      | success newAddress =>
        intro session
        obtain ⟨attempt, latest, started⟩ := holds session
        obtain ⟨last, lastIs⟩ : ∃ last, (world.attempts.set index
            ⟨generatedAccount, .resolved⟩).getLast? = some last := by
          refine Option.ne_none_iff_exists'.mp fun none => ?_
          have empty := List.getLast?_eq_none_iff.mp none
          rw [List.set_eq_nil_iff] at empty
          rw [empty] at latest
          cases latest
        refine ⟨last, lastIs, ?_⟩
        rcases getLast?_set lastIs with rfl | before
        · exact .inr rfl
        · rw [before] at latest
          cases latest
          exact started
    · rw [ignored]
      exact holds
  | keyImage txPubKey outIndex =>
    obtain ⟨keyImages, same⟩ := @exists_afterKeyImage primitives world.service txPubKey outIndex
    intro session
    have session : (afterKeyImage primitives world.service txPubKey outIndex).loggedIn = true :=
      session
    rw [same] at session
    exact holds session

theorem sessionOfLatest_run (events : List Event) :
    SessionOfLatest (Runs.run (step nettype primitives) {} events) :=
  Runs.run_invariant_of_step _ SessionOfLatest
    (fun _ event holds => sessionOfLatest_step holds event) events {}
    fun session => by cases session

section

variable (nettype : Nat) (primitives : Primitives)

/-- In every run of the service, a rejected login leaves nothing behind while no later one is
called, and no answer to an earlier login ends or marks a later session, just when no login
without a spend key is refused for its form, none is refused for its seed, and the answers that
arrive late are successes with the mark that the session already has. -/
theorem sessions_kept_iff (events : List Event) :
    ((∀ first rest, first ++ rest = events →
        RejectedCleared (Runs.run (step nettype primitives) {} first)) ∧
      Runs.Along (step nettype primitives) (KeepsSession) {} events) ↔
    Runs.Along (step nettype primitives)
      (fun world event => ClearsRejected nettype primitives world event ∧ LateSuccess world event)
      {} events := by
  have initially : RejectedCleared {} := by
    rintro ⟨_, _, latest, _⟩
    cases latest
  rw [Runs.along_and]
  refine and_congr ?_ ?_
  · exact Runs.reached_iff_along (step nettype primitives) _ (fun _ => True) RejectedCleared
      (fun _ _ _ => trivial) (fun world event _ holds => rejectedCleared_step_iff holds event)
      events {} trivial initially
  · exact Runs.along_congr (step nettype primitives) _ _ (fun _ => True)
      (fun world event _ => ⟨trivial, keepsSession_iff world event⟩) events {} trivial

end

end

/-- Libraries that give zeros whatever they are called with. -/
def zeros : Primitives where
  keccak256 := fun _ => Vector.replicate 32 0
  scReduce32 := fun _ => Vector.replicate 32 0
  scAdd := fun _ _ => Vector.replicate 32 0
  scCheck := fun _ => 0
  geScalarmultBase := fun _ => Vector.replicate 32 0
  geScalarmult := fun _ _ => .ok (Vector.replicate 32 0)
  geAdd := fun _ _ => .ok (Vector.replicate 32 0)
  geFromfeFrombytesVartime := fun _ => List.replicate 120 0
  geMul8 := fun _ => List.replicate 160 0
  geP1p1ToP3 := fun _ => List.replicate 160 0
  geScalarmultPoint := fun _ _ => List.replicate 120 0
  geTobytes := fun _ => Vector.replicate 32 0

/-- A subaddress of zeros, with a view key and no spend key. -/
def viewCredentials : Credentials where
  address := some (JsString.ofString "82TFauPiYEj" ++ List.replicate 84 49)
  viewKey := some (List.replicate 64 48)

theorem run_viewCredentials :
    let world := Runs.run (step 0 zeros) {} [.login viewCredentials, .login viewCredentials]
    world.service.loggedIn = true ∧ world.attempts = [⟨false, .pending⟩, ⟨false, .pending⟩] := by
  decide +kernel

/-- A login with a view key that is too short leaves the mark of a session without a spend key. When
an address is logged in twice and the first request fails late, the session of the second one
ends. -/
theorem not_sessions_kept :
    (¬ ∀ primitives events,
      RejectedCleared (Runs.run (step 0 primitives) {} events)) ∧
    ¬ ∀ primitives events,
      Runs.Along (step 0 primitives) KeepsSession {} events := by
  constructor
  · intro cleared
    have left := cleared zeros [.login { viewKey := some [48, 48] }]
    have view := (left ⟨_, _, rfl, rfl⟩).viewOnly
    revert view
    decide +kernel
  · intro kept
    have along := kept zeros ([.login viewCredentials, .login viewCredentials] ++
      [.reply 0 (.failure none)])
    have late := ((Runs.along_append _ _ _ _ _).mp along).2.1
    obtain ⟨session, waiting⟩ := run_viewCredentials
    generalize Runs.run (step 0 zeros) {} [.login viewCredentials, .login viewCredentials] = world
      at late session waiting
    have ended := (late (by rw [waiting]; decide) session).1
    rw [reply, waiting] at ended
    cases ended

end LightWallet.Frontend.AccountService
