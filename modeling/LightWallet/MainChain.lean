/-
This file says what a main chain is: which transactions are mined in it, at which
heights, and that a ring refers to transactions that were mined before. The blocks
that a search reads between two heights are a part of the chain.
-/

import LightWallet.Completeness
import Mathlib.Data.List.Flatten

namespace LightWallet.MainChain

open Windows (Entry entries)

/-! ### Main chains -/

/-- A transaction with the given hash is mined at the given height. -/
def MinedAt (chain : List Block) (hash : String) (height : Nat) : Prop :=
  ∃ entry ∈ entries chain, entry.tx.hash = hash ∧ entry.blk.height = height

instance (chain : List Block) (hash : String) (height : Nat) :
    Decidable (MinedAt chain hash height) := inferInstanceAs (Decidable (∃ entry ∈ _, _ ∧ _))

/-- `CurrentBlockchainStatus::get_blocks_range`. There are no blocks between the heights while the
search waits, and none can be read where the chain ends before them. -/
def getBlocksRange (chain : List Block) (h1 h2 : Nat) : Option (List Block) :=
  if h2 < h1 then some []
  else if h2 < chain.length then some ((chain.drop h1).take (h2 + 1 - h1))
  else none

section Sound

variable (wallet : Wallet) (ring : Transaction → List (String × String))
  (exist : Transaction → Prop)

/-- The transaction pays the account, to the given one-time key. -/
def Pays (tx : Transaction) (key : String) : Prop :=
  ∃ info ∈ wallet.identifier.outputs tx, info.pubKey = key

/-- The blocks have their heights, no transaction is mined twice, and the members of a ring that
are outputs of the account were mined before the ring. -/
structure Sound (chain : List Block) : Prop where
  heights : chain.map Block.height = List.range chain.length
  distinct : ((entries chain).map (·.tx.hash)).Nodup
  present : ∀ entry ∈ entries chain, exist entry.tx
  earlier : ∀ before entry after, entries chain = before ++ entry :: after →
    ∀ member ∈ ring entry.tx, ∀ tx, exist tx → Pays wallet tx member.2 →
      ∃ other ∈ before, other.tx = tx

variable {wallet ring exist} {chain : List Block}

theorem blk_eq_of_mem {blk : Block} {entry : Entry} (member : entry ∈
    ((⟨blk, true, blk.minerTx⟩ :: blk.txs.map fun tx => ⟨blk, false, tx⟩ : List Entry))) :
    entry.blk = blk := by
  rcases List.mem_cons.mp member with rfl | rest
  · rfl
  · obtain ⟨tx, -, rfl⟩ := List.mem_map.mp rest
    rfl

theorem mem_of_mem_entries {blocks : List Block} {entry : Entry}
    (member : entry ∈ entries blocks) : entry.blk ∈ blocks := by
  obtain ⟨blk, inBlocks, inBlock⟩ := List.mem_flatMap.mp member
  rwa [blk_eq_of_mem inBlock]

/-- What every split of a list has, its members have pairwise. -/
theorem pairwise_of_splits {Member : Type} {related : Member → Member → Prop}
    {members : List Member} (splits : ∀ before first after, members = before ++ first :: after →
      ∀ later ∈ after, related first later) : members.Pairwise related := by
  induction members with
  | nil => exact List.Pairwise.nil
  | cons first rest inductionHypothesis =>
    refine List.pairwise_cons.mpr ⟨splits [] first rest rfl, inductionHypothesis ?_⟩
    intro before other after isRest
    exact splits (first :: before) other after (congrArg (first :: ·) isRest)

theorem height_getElem (heights : chain.map Block.height = List.range chain.length)
    {position : Nat} (inside : position < chain.length) : chain[position].height = position := by
  have read := congrArg (·[position]?) heights
  simpa [inside] using read

theorem Sound.height_lt (sound : Sound wallet ring exist chain) {blk : Block}
    (member : blk ∈ chain) : blk.height < chain.length := by
  obtain ⟨position, inside, rfl⟩ := List.getElem_of_mem member
  rw [height_getElem sound.heights inside]
  exact inside

theorem Sound.minedAt_lt (sound : Sound wallet ring exist chain) {hash : String} {height : Nat}
    (mined : MinedAt chain hash height) : height < chain.length := by
  obtain ⟨entry, member, -, rfl⟩ := mined
  exact sound.height_lt (mem_of_mem_entries member)

/-- A hash is that of one transaction of the chain. -/
theorem Sound.entry_eq (sound : Sound wallet ring exist chain) {first second : Entry}
    (inChain : first ∈ entries chain) (alsoInChain : second ∈ entries chain)
    (same : first.tx.hash = second.tx.hash) : first = second :=
  List.inj_on_of_nodup_map sound.distinct inChain alsoInChain same

theorem Sound.minedAt_unique (sound : Sound wallet ring exist chain) {hash : String}
    {first second : Nat} (here : MinedAt chain hash first) (there : MinedAt chain hash second) :
    first = second := by
  obtain ⟨entry, inChain, isHash, rfl⟩ := here
  obtain ⟨other, alsoInChain, sameHash, rfl⟩ := there
  rw [sound.entry_eq inChain alsoInChain (isHash.trans sameHash.symm)]

/-- The heights do not fall along the chain. -/
theorem Sound.pairwise_height (sound : Sound wallet ring exist chain) :
    (entries chain).Pairwise fun first later => first.blk.height ≤ later.blk.height := by
  have blocks : chain.Pairwise fun first later => first.height < later.height := by
    have numbers := @List.pairwise_lt_range chain.length
    rwa [← sound.heights, List.pairwise_map] at numbers
  refine List.pairwise_flatMap.mpr ⟨fun blk _ => ?_,
    blocks.imp fun lower first inFirst later inLater => ?_⟩
  · refine List.pairwise_of_forall_mem_list fun first inFirst later inLater => ?_
    rw [blk_eq_of_mem inFirst, blk_eq_of_mem inLater]
  · rw [blk_eq_of_mem inFirst, blk_eq_of_mem inLater]
    exact Nat.le_of_lt lower

/-- What a ring of the chain refers to is mined, and not later. -/
theorem Sound.exists_earlier (sound : Sound wallet ring exist chain) {entry : Entry}
    (member : entry ∈ entries chain) {ringMember : String × String}
    (inRing : ringMember ∈ ring entry.tx) {tx : Transaction} (isTx : exist tx)
    (pays : Pays wallet tx ringMember.2) :
    ∃ other ∈ entries chain, other.tx = tx ∧ other.blk.height ≤ entry.blk.height := by
  obtain ⟨before, after, split⟩ := List.append_of_mem member
  obtain ⟨other, inBefore, isOther⟩ := sound.earlier before entry after split ringMember inRing tx
    isTx pays
  have sorted := sound.pairwise_height
  rw [split] at sorted ⊢
  exact ⟨other, List.mem_append_left _ inBefore, isOther,
    (List.pairwise_append.mp sorted).2.2 other inBefore entry List.mem_cons_self⟩

/-- No ring refers to a later transaction. -/
theorem Sound.notLater (sound : Sound wallet ring exist chain) :
    (entries chain).Pairwise fun entry later =>
      ∀ member ∈ ring entry.tx, ¬ Pays wallet later.tx member.2 := by
  refine pairwise_of_splits fun before entry after split later inAfter member inRing pays => ?_
  have inChain : later ∈ entries chain := by
    rw [split]
    exact List.mem_append_right _ (List.mem_cons_of_mem _ inAfter)
  obtain ⟨other, inBefore, isTx⟩ := sound.earlier before entry after split member inRing later.tx
    (sound.present later inChain) pays
  have distinct := sound.distinct
  rw [split, List.map_append, List.nodup_append] at distinct
  refine distinct.2.2 _ (List.mem_map_of_mem inBefore) _
    (List.mem_map_of_mem (List.mem_cons_of_mem _ inAfter)) ?_
  exact congrArg Transaction.hash isTx

end Sound

/-! ### The blocks between two heights -/

section Range

variable {wallet : Wallet} {ring : Transaction → List (String × String)}
  {exist : Transaction → Prop} {chain blocks : List Block} {h1 h2 : Nat}

theorem of_getBlocksRange (read : getBlocksRange chain h1 h2 = some blocks) (some : blocks ≠ []) :
    h1 ≤ h2 ∧ h2 < chain.length ∧ blocks = (chain.drop h1).take (h2 + 1 - h1) := by
  unfold getBlocksRange at read
  split at read
  · exact absurd (Option.some.inj read).symm some
  · next ordered =>
    split at read
    · next inside => exact ⟨Nat.le_of_not_lt ordered, inside, (Option.some.inj read).symm⟩
    · cases read

/-- What is read is a part of the chain. -/
theorem sublist_of_getBlocksRange (read : getBlocksRange chain h1 h2 = some blocks)
    (some : blocks ≠ []) : (entries blocks).Sublist (entries chain) := by
  obtain ⟨-, -, rfl⟩ := of_getBlocksRange read some
  exact ((List.take_sublist _ _).trans (List.drop_sublist _ _)).flatMap _

/-- Exactly the blocks between the heights are read. -/
theorem mem_getBlocksRange_iff (sound : Sound wallet ring exist chain)
    (read : getBlocksRange chain h1 h2 = some blocks) (some : blocks ≠ []) {blk : Block} :
    blk ∈ blocks ↔ blk ∈ chain ∧ h1 ≤ blk.height ∧ blk.height ≤ h2 := by
  obtain ⟨ordered, inside, rfl⟩ := of_getBlocksRange read some
  constructor
  · intro member
    obtain ⟨position, below, rfl⟩ := List.getElem_of_mem member
    have bounds := below
    rw [List.length_take, List.length_drop] at bounds
    rw [List.getElem_take, List.getElem_drop, height_getElem sound.heights]
    exact ⟨List.getElem_mem _, by omega, by omega⟩
  · rintro ⟨member, above, below⟩
    obtain ⟨position, inChain, rfl⟩ := List.getElem_of_mem member
    rw [height_getElem sound.heights inChain] at above below
    refine List.mem_iff_getElem.mpr ⟨position - h1, ?_, ?_⟩
    · rw [List.length_take, List.length_drop]
      omega
    · rw [List.getElem_take, List.getElem_drop]
      congr 1
      omega

theorem mem_entries_getBlocksRange_iff (sound : Sound wallet ring exist chain)
    (read : getBlocksRange chain h1 h2 = some blocks) (some : blocks ≠ []) {entry : Entry} :
    entry ∈ entries blocks ↔
      entry ∈ entries chain ∧ h1 ≤ entry.blk.height ∧ entry.blk.height ≤ h2 := by
  constructor
  · intro member
    obtain ⟨-, above, below⟩ :=
      (mem_getBlocksRange_iff sound read some).mp (mem_of_mem_entries member)
    exact ⟨(sublist_of_getBlocksRange read some).subset member, above, below⟩
  · rintro ⟨member, above, below⟩
    have inBlocks := (mem_getBlocksRange_iff sound read some).mpr
      ⟨mem_of_mem_entries member, above, below⟩
    obtain ⟨blk, inChain, inBlock⟩ := List.mem_flatMap.mp member
    rw [blk_eq_of_mem inBlock] at inBlocks
    exact List.mem_flatMap.mpr ⟨blk, inBlocks, inBlock⟩

end Range

end LightWallet.MainChain
