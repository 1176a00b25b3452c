import Mathlib.Data.Set.Card
import Tonbankcard.NumberText
import Tonbankcard.TonAddress

/-! The voter snapshots of the governance tool: how they are made from the answers of a provider,
and how they are checked. The parser of addresses is a parameter. -/
namespace Tonbankcard.GovernanceSnapshot

open EcmaScript Ton

structure GovernanceConfig where
  diamondsCollectionAddress : JsString
  totalSupply : ℕ

structure VoterSnapshot where
  nftIndex : ℤ
  ownerAddress : JsString
  votingPower : ℤ
  deriving DecidableEq

structure Metadata where
  governanceType : JsString
  complete : Bool
  failedIndices : List ℕ
  deriving DecidableEq

structure Snapshot where
  snapshotBlock : Number
  collectionAddress : JsString
  totalSupply : ℕ
  voters : List VoterSnapshot
  totalVotingPower : ℤ
  uniqueOwners : ℤ
  metadata : Metadata
  deriving DecidableEq

structure NFTData where
  init : Bool
  index : Number
  collectionAddress : Address
  ownerAddress : Option Address

/-- What a provider answers, or the message of its error. The data of an item is asked for in the
turn of an index, and an item may be answered for otherwise in another turn. -/
structure Provider where
  getLatestBlock : Except JsString Number
  getNFTAddress : Address → ℕ → Number → Except JsString Address
  getNFTData : ℕ → Address → Number → Except JsString NFTData

section Creation
variable (provider : Provider) (collection : Address) (block : Number)

/-- The body of the loop up to its `catch`. -/
def queryDiamond (index : ℕ) : Except JsString (Option VoterSnapshot) := do
  let nftAddress ← provider.getNFTAddress collection index block
  let nftData ← provider.getNFTData index nftAddress block
  if nftData.index ≠ .finite index then
    .error (js "get_nft_data returned index " ++ nftData.index.text)
  else if nftData.collectionAddress ≠ collection then
    .error (js "get_nft_data returned another collection address")
  else match nftData.ownerAddress with
    | some owner => .ok (if nftData.init then some ⟨index,owner.friendly,1⟩ else none)
    | none => .ok none

structure Progress where
  voters : List VoterSnapshot
  ownerSet : Finset JsString
  failedIndices : List ℕ

def turn (allowPartial : Bool) (progress : Progress) (index : ℕ) : Except JsString Progress :=
  match queryDiamond provider collection block index with
  | .ok (some voter) => .ok ⟨progress.voters ++ [voter],
      insert voter.ownerAddress progress.ownerSet,progress.failedIndices⟩
  | .ok none => .ok progress
  | .error message =>
    if allowPartial then
      .ok ⟨progress.voters,progress.ownerSet,progress.failedIndices ++ [index]⟩
    else .error (js "Snapshot incomplete at Diamond #" ++ natDigits index ++ js ": " ++ message)

def queryAll (allowPartial : Bool) (totalSupply : ℕ) : Except JsString Progress :=
  (List.range totalSupply).foldlM (turn provider collection block allowPartial) ⟨[],∅,[]⟩

end Creation

def snapshotBlock (provider : Provider) : Option Number → Except JsString Number
  | some block =>
    if !block.isSafeInteger || !Number.lt (.finite 0) block then
      .error (js "Snapshot block must be a positive integer masterchain seqno")
    else .ok block
  | none => provider.getLatestBlock

def governanceType : JsString := js "advisory-non-binding"

def createSnapshot (parse : JsString → Except JsString Address) (config : GovernanceConfig)
    (provider : Provider) (blockNumber : Option Number) (allowPartial : Bool) :
    Except JsString Snapshot :=
  if config.diamondsCollectionAddress.isEmpty then
    .error (js "TBC Diamonds collection address not configured. Please set diamondsCollectionAddress in config.json")
  else do
    let collection ← parse config.diamondsCollectionAddress
    let block ← snapshotBlock provider blockNumber
    let progress ← queryAll provider collection block allowPartial config.totalSupply
    .ok {
      snapshotBlock := block
      collectionAddress := config.diamondsCollectionAddress
      totalSupply := config.totalSupply
      voters := progress.voters.insertionSort fun a b => a.nftIndex - b.nftIndex ≤ 0
      totalVotingPower := progress.voters.length
      uniqueOwners := progress.ownerSet.card
      metadata := ⟨governanceType,progress.failedIndices.isEmpty,progress.failedIndices⟩ }

section Verification

structure Verification where
  valid : Bool
  errors : List JsString
  warnings : List JsString

/-- A line of a report, which is there if the condition holds. -/
def line (condition : Prop) [Decidable condition] (text : JsString) : List JsString :=
  if condition then [text] else []

theorem line_eq_nil {condition : Prop} [Decidable condition] {text : JsString} :
    line condition text = [] ↔ ¬condition := by
  rw [line]
  split
  · rename_i holds
    exact iff_of_false (List.cons_ne_nil _ _) (not_not.mpr holds)
  · rename_i fails
    exact iff_of_true rfl fails

variable (parse : JsString → Except JsString Address)

def voterErrors (i : ℕ) (indices : Finset ℤ) (voter : VoterSnapshot) : List JsString :=
  let place := js "Voter " ++ natDigits i ++ js ": "
  line (voter.nftIndex < 0 ∨ voter.nftIndex ≥ 222)
      (place ++ js "Invalid NFT index " ++ decimal voter.nftIndex) ++
    line (voter.nftIndex ∈ indices) (place ++ js "Duplicate NFT index " ++ decimal voter.nftIndex) ++
    line ((parse voter.ownerAddress).toOption = none) (place ++ js "Invalid owner address format") ++
    line (voter.votingPower ≠ 1)
      (place ++ js "Voting power must be 1 (got " ++ decimal voter.votingPower ++ js ")")

/-- The loop over the voters from `i` on, with the indices of those before. -/
def votersErrors : ℕ → Finset ℤ → List VoterSnapshot → List JsString
  | _, _, [] => []
  | i, indices, voter :: rest =>
    voterErrors parse i indices voter ++ votersErrors (i + 1) (insert voter.nftIndex indices) rest

def mismatch (what : JsString) (expected got : ℤ) : JsString :=
  what ++ js " mismatch: expected " ++ decimal expected ++ js ", got " ++ decimal got

/-- The text of the participation in percent is a parameter. -/
def verifySnapshot (percent : ℕ → ℕ → JsString) (snapshot : Snapshot) : Verification :=
  let owners := (snapshot.voters.map VoterSnapshot.ownerAddress).toFinset
  let errors :=
    line (snapshot.snapshotBlock = .nan ∨ snapshot.snapshotBlock = .finite 0 ∨
        snapshot.snapshotBlock.lt (.finite 0) = true) (js "Invalid snapshot_block") ++
      line (snapshot.collectionAddress = []) (js "Missing collection_address") ++
      line (snapshot.totalSupply ≠ 222) (js "Total supply must be 222") ++
      votersErrors parse 0 ∅ snapshot.voters ++
      line (snapshot.totalVotingPower ≠ snapshot.voters.length)
        (mismatch (js "Total voting power") snapshot.voters.length snapshot.totalVotingPower) ++
      line (snapshot.uniqueOwners ≠ owners.card)
        (mismatch (js "Unique owners") owners.card snapshot.uniqueOwners) ++
      line (snapshot.metadata.complete ≠ true ∨ 0 < snapshot.metadata.failedIndices.length)
        (js "Snapshot is partial or completeness is not attested")
  let warnings :=
    line (2 * snapshot.voters.length < snapshot.totalSupply)
        (js "Low participation: Only " ++ natDigits snapshot.voters.length ++ 47 ::
          natDigits snapshot.totalSupply ++ js " NFTs included (" ++
          percent snapshot.voters.length snapshot.totalSupply ++ js "%)") ++
      line (owners.card = 1)
        (js "All NFTs owned by single address - potential centralization") ++
      line (snapshot.metadata.governanceType ≠ governanceType)
        (js "Governance type should be \"advisory-non-binding\"")
  ⟨errors.isEmpty,errors,warnings⟩

end Verification

section Queries
variable (provider : Provider) (collection : Address) (block : Number)

/-- The lookups of an index succeed, and name the index and the collection. -/
def Answered (index : ℕ) (data : NFTData) : Prop :=
  ∃ nftAddress, provider.getNFTAddress collection index block = .ok nftAddress ∧
    provider.getNFTData index nftAddress block = .ok data ∧ data.index = .finite index ∧
    data.collectionAddress = collection

def Failed (index : ℕ) : Prop := ¬∃ data, Answered provider collection block index data

/-- The item of an index is answered for as initialized, and with an owner. -/
def Owned (index : ℕ) (owner : Address) : Prop :=
  ∃ data, Answered provider collection block index data ∧ data.init = true ∧
    data.ownerAddress = some owner

def ballot (index : ℕ) (owner : Address) : VoterSnapshot := ⟨index,owner.friendly,1⟩

theorem queryDiamond_cases (index : ℕ) :
    (∃ owner, Owned provider collection block index owner ∧
      queryDiamond provider collection block index = .ok (some (ballot index owner))) ∨
    ((∃ data, Answered provider collection block index data) ∧
      (∀ owner, ¬Owned provider collection block index owner) ∧
      queryDiamond provider collection block index = .ok none) ∨
    (Failed provider collection block index ∧
      ∃ message, queryDiamond provider collection block index = .error message) := by
  cases located : provider.getNFTAddress collection index block with
  | error message =>
    refine .inr (.inr ⟨?_,message,by simp only [queryDiamond,located,bind,Except.bind]⟩)
    rintro ⟨data,nftAddress,found,-⟩
    rw [located] at found
    cases found
  | ok nftAddress =>
  cases read : provider.getNFTData index nftAddress block with
  | error message =>
    refine .inr (.inr ⟨?_,message,by simp only [queryDiamond,located,bind,Except.bind,read]⟩)
    rintro ⟨data,other,found,got,-⟩
    rw [located] at found
    cases found
    rw [read] at got
    cases got
  | ok nftData =>
  have only {data : NFTData} (answered : Answered provider collection block index data) :
      data = nftData ∧ nftData.index = .finite index ∧ nftData.collectionAddress = collection := by
    obtain ⟨other,found,got,same⟩ := answered
    rw [located] at found
    cases found
    rw [read] at got
    cases got
    exact ⟨rfl,same⟩
  have body : queryDiamond provider collection block index =
      if nftData.index ≠ .finite index then
        .error (js "get_nft_data returned index " ++ nftData.index.text)
      else if nftData.collectionAddress ≠ collection then
        .error (js "get_nft_data returned another collection address")
      else match nftData.ownerAddress with
        | some owner => .ok (if nftData.init then some ⟨index,owner.friendly,1⟩ else none)
        | none => .ok none := by
    simp only [queryDiamond,located,bind,Except.bind,read]
  rw [body]
  split
  · rename_i other
    exact .inr (.inr ⟨fun ⟨data,answered⟩ => other (only answered).2.1,_,rfl⟩)
  rename_i sameIndex
  split
  · rename_i other
    exact .inr (.inr ⟨fun ⟨data,answered⟩ => other (only answered).2.2,_,rfl⟩)
  rename_i sameCollection
  have answered : Answered provider collection block index nftData :=
    ⟨nftAddress,located,read,not_not.mp sameIndex,not_not.mp sameCollection⟩
  cases owned : nftData.ownerAddress with
  | none =>
    refine .inr (.inl ⟨⟨nftData,answered⟩,?_,rfl⟩)
    rintro owner ⟨data,found,-,named⟩
    rw [(only found).1,owned] at named
    cases named
  | some owner =>
    cases initialized : nftData.init with
    | true => exact .inl ⟨owner,⟨nftData,answered,initialized,owned⟩,rfl⟩
    | false =>
      refine .inr (.inl ⟨⟨nftData,answered⟩,?_,rfl⟩)
      rintro owner ⟨data,found,inited,-⟩
      rw [(only found).1,initialized] at inited
      cases inited

theorem Owned.unique {index : ℕ} {owner other : Address}
    (owned : Owned provider collection block index owner)
    (owned' : Owned provider collection block index other) : owner = other := by
  obtain ⟨data,⟨nftAddress,found,got,-⟩,-,named⟩ := owned
  obtain ⟨data',⟨nftAddress',found',got',-⟩,-,named'⟩ := owned'
  obtain rfl := Except.ok.inj (found.symm.trans found')
  obtain rfl := Except.ok.inj (got.symm.trans got')
  exact Option.some.inj (named.symm.trans named')

/-- What the loop has after the indices below a bound. -/
structure Queried (allowPartial : Bool) (bound : ℕ) (progress : Progress) : Prop where
  ordered : progress.voters.Pairwise fun a b => a.nftIndex < b.nftIndex
  voters : ∀ voter, voter ∈ progress.voters ↔ ∃ index < bound, ∃ owner,
    Owned provider collection block index owner ∧ voter = ballot index owner
  owners : progress.ownerSet = (progress.voters.map VoterSnapshot.ownerAddress).toFinset
  failures : ∀ index, index ∈ progress.failedIndices ↔
    index < bound ∧ Failed provider collection block index
  whole : allowPartial = false → progress.failedIndices = []

variable {provider} {collection} {block}

theorem Queried.turn {allowPartial : Bool} {bound : ℕ} {progress next : Progress}
    (queried : Queried provider collection block allowPartial bound progress)
    (turned : turn provider collection block allowPartial progress bound = .ok next) :
    Queried provider collection block allowPartial (bound + 1) next := by
  have failures (kept : ¬Failed provider collection block bound) (index : ℕ) :
      index ∈ progress.failedIndices ↔
        index < bound + 1 ∧ Failed provider collection block index := by
    rw [queried.failures]
    refine ⟨fun both => ⟨Nat.lt_succ_of_lt both.1,both.2⟩,fun ⟨below,failed⟩ => ?_⟩
    rcases Nat.lt_succ_iff_lt_or_eq.mp below with before | rfl
    · exact ⟨before,failed⟩
    · exact absurd failed kept
  have voters (unowned : ∀ owner, ¬Owned provider collection block bound owner)
      (voter : VoterSnapshot) : voter ∈ progress.voters ↔ ∃ index < bound + 1, ∃ owner,
        Owned provider collection block index owner ∧ voter = ballot index owner := by
    rw [queried.voters]
    constructor
    · rintro ⟨index,below,named⟩
      exact ⟨index,Nat.lt_succ_of_lt below,named⟩
    · rintro ⟨index,below,owner,owned,same⟩
      rcases Nat.lt_succ_iff_lt_or_eq.mp below with before | rfl
      · exact ⟨index,before,owner,owned,same⟩
      · exact absurd owned (unowned owner)
  rcases queryDiamond_cases provider collection block bound with
    ⟨owner,owned,answer⟩ | ⟨answered,unowned,answer⟩ | ⟨failed,message,answer⟩
  · rw [GovernanceSnapshot.turn,answer] at turned
    cases turned
    refine ⟨?_,fun voter => ?_,?_,failures fun failed => ?_,queried.whole⟩
    · refine List.pairwise_append.mpr ⟨queried.ordered,List.pairwise_singleton _ _,?_⟩
      intro voter member last isLast
      obtain ⟨index,below,other,-,rfl⟩ := (queried.voters voter).mp member
      rw [List.mem_singleton.mp isLast]
      exact Int.ofNat_lt.mpr below
    · rw [List.mem_append,queried.voters,List.mem_singleton]
      constructor
      · rintro (⟨index,below,named⟩ | rfl)
        · exact ⟨index,Nat.lt_succ_of_lt below,named⟩
        · exact ⟨bound,Nat.lt_succ_self bound,owner,owned,rfl⟩
      · rintro ⟨index,below,other,owned',rfl⟩
        rcases Nat.lt_succ_iff_lt_or_eq.mp below with before | rfl
        · exact .inl ⟨index,before,other,owned',rfl⟩
        · exact .inr (by rw [owned'.unique _ _ _ owned])
    · rw [queried.owners,List.map_append,List.toFinset_append,Finset.union_comm]
      rfl
    · obtain ⟨data,answered,-⟩ := owned
      exact failed ⟨data,answered⟩
  · rw [GovernanceSnapshot.turn,answer] at turned
    cases turned
    exact ⟨queried.ordered,voters unowned,queried.owners,failures fun failed => failed answered,
      queried.whole⟩
  · rw [GovernanceSnapshot.turn,answer] at turned
    cases allowPartial with
    | false => cases turned
    | true =>
      cases turned
      refine ⟨queried.ordered,voters fun owner ⟨data,answered,_⟩ => failed ⟨data,answered⟩,
        queried.owners,fun index => ?_,fun strict => by cases strict⟩
      rw [List.mem_append,queried.failures,List.mem_singleton]
      constructor
      · rintro (⟨below,missed⟩ | rfl)
        · exact ⟨Nat.lt_succ_of_lt below,missed⟩
        · exact ⟨Nat.lt_succ_self index,failed⟩
      · rintro ⟨below,missed⟩
        exact (Nat.lt_succ_iff_lt_or_eq.mp below).imp_left fun before => ⟨before,missed⟩

theorem queryAll_queried {allowPartial : Bool} {totalSupply : ℕ} {progress : Progress}
    (all : queryAll provider collection block allowPartial totalSupply = .ok progress) :
    Queried provider collection block allowPartial totalSupply progress := by
  rw [queryAll] at all
  induction totalSupply generalizing progress with
  | zero =>
    cases all
    exact ⟨List.Pairwise.nil,by simp,rfl,by simp,fun _ => rfl⟩
  | succ bound ih =>
    rw [List.range_succ,List.foldlM_append] at all
    cases before : (List.range bound).foldlM (turn provider collection block allowPartial)
        ⟨[],∅,[]⟩ with
    | error message =>
      rw [before] at all
      cases all
    | ok earlier =>
      rw [before] at all
      change (turn provider collection block allowPartial earlier bound >>= pure) = _ at all
      rw [bind_pure] at all
      exact (ih before).turn all

end Queries

section Soundness
variable {parse : JsString → Except JsString Address} {config : GovernanceConfig}
  {provider : Provider}

/-- What the check of voters asks of each. -/
def WellFormed (parse : JsString → Except JsString Address) (voter : VoterSnapshot) : Prop :=
  0 ≤ voter.nftIndex ∧ voter.nftIndex < 222 ∧ (parse voter.ownerAddress).toOption ≠ none ∧
    voter.votingPower = 1

theorem votersErrors_nil {voters : List VoterSnapshot} (i : ℕ) {indices : Finset ℤ}
    (each : ∀ voter ∈ voters, WellFormed parse voter ∧ voter.nftIndex ∉ indices)
    (ordered : voters.Pairwise fun a b => a.nftIndex < b.nftIndex) :
    votersErrors parse i indices voters = [] := by
  induction voters generalizing i indices with
  | nil => rfl
  | cons voter rest ih =>
    obtain ⟨⟨⟨natural,below,readable,power⟩,fresh⟩,others⟩ := List.forall_mem_cons.mp each
    obtain ⟨first,ordered⟩ := List.pairwise_cons.mp ordered
    have later : votersErrors parse (i + 1) (insert voter.nftIndex indices) rest = [] := by
      refine ih (i + 1) (fun other member => ⟨(others other member).1,fun seen => ?_⟩) ordered
      rcases Finset.mem_insert.mp seen with same | old
      · exact absurd (first other member) (by omega)
      · exact (others other member).2 old
    rw [votersErrors,later,List.append_nil,voterErrors]
    simp only [List.append_eq_nil_iff,line_eq_nil]
    exact ⟨⟨⟨by omega,fresh⟩,readable⟩,not_not.mpr power⟩

/-- The parts of a snapshot that is returned. -/
theorem createSnapshot_ok {blockNumber : Option Number} {allowPartial : Bool} {snapshot : Snapshot}
    (created : createSnapshot parse config provider blockNumber allowPartial = .ok snapshot) :
    ∃ collection progress, config.diamondsCollectionAddress ≠ [] ∧
      parse config.diamondsCollectionAddress = .ok collection ∧
      snapshotBlock provider blockNumber = .ok snapshot.snapshotBlock ∧
      Queried provider collection snapshot.snapshotBlock allowPartial config.totalSupply progress ∧
      snapshot.collectionAddress = config.diamondsCollectionAddress ∧
      snapshot.totalSupply = config.totalSupply ∧ snapshot.voters = progress.voters ∧
      snapshot.totalVotingPower = progress.voters.length ∧
      snapshot.uniqueOwners = progress.ownerSet.card ∧
      snapshot.metadata =
        ⟨governanceType,progress.failedIndices.isEmpty,progress.failedIndices⟩ := by
  rw [createSnapshot] at created
  split at created
  · cases created
  rename_i named
  cases parsed : parse config.diamondsCollectionAddress with
  | error message =>
    simp only [parsed,bind,Except.bind] at created
    cases created
  | ok collection =>
  cases blocked : snapshotBlock provider blockNumber with
  | error message =>
    simp only [parsed,blocked,bind,Except.bind] at created
    cases created
  | ok block =>
  cases all : queryAll provider collection block allowPartial config.totalSupply with
  | error message =>
    simp only [parsed,blocked,all,bind,Except.bind] at created
    cases created
  | ok progress =>
    simp only [parsed,blocked,all,bind,Except.bind,Except.ok.injEq] at created
    have queried := queryAll_queried all
    have sorted : progress.voters.insertionSort (fun a b => a.nftIndex - b.nftIndex ≤ 0) =
        progress.voters :=
      List.Pairwise.insertionSort_eq (queried.ordered.imp fun less => by omega)
    rw [← created]
    exact ⟨collection,progress,fun empty => named (by rw [empty]; rfl),rfl,rfl,queried,rfl,rfl,
      sorted,rfl,rfl,rfl⟩

/-- A block after the first one. -/
def IsPositive (block : Number) : Prop := Number.lt (.finite 0) block = true

theorem explicit_positive {block given : Number}
    (blocked : snapshotBlock provider (some given) = .ok block) : IsPositive block := by
  rw [snapshotBlock] at blocked
  split at blocked
  · cases blocked
  · rename_i checks
    cases blocked
    rw [Bool.or_eq_true,not_or] at checks
    simpa [IsPositive] using checks.2

theorem IsPositive.valid {block : Number} (positive : IsPositive block) :
    ¬ (block = .nan ∨ block = .finite 0 ∨ block.lt (.finite 0) = true) := by
  rw [IsPositive] at positive
  cases block with
  | nan => cases positive
  | infinite negative => cases negative <;> simp_all [Number.lt]
  | finite value =>
    simp only [Number.lt,decide_eq_true_eq] at positive ⊢
    simp only [reduceCtorEq,Number.finite.injEq,false_or,not_or,not_lt]
    exact ⟨positive.ne',positive.le⟩

/-- A snapshot that is returned: one that may not be partial is valid if its block is positive,
one with a failed index never is, and its voters are the owners of the initialized items. -/
theorem snapshot_sound (readable : ∀ address, parse address.friendly = .ok address)
    (percent : ℕ → ℕ → JsString) (supply : config.totalSupply = 222)
    {blockNumber : Option Number} {allowPartial : Bool} {snapshot : Snapshot}
    (created : createSnapshot parse config provider blockNumber allowPartial = .ok snapshot)
    {collection : Address} (parsed : parse config.diamondsCollectionAddress = .ok collection) :
    (allowPartial = false →
      (blockNumber = none → ∀ block, provider.getLatestBlock = .ok block → IsPositive block) →
        (verifySnapshot parse percent snapshot).valid = true) ∧
    ((∃ index < 222, Failed provider collection snapshot.snapshotBlock index) →
      (verifySnapshot parse percent snapshot).valid = false) ∧
    (snapshot.voters.Pairwise fun a b => a.nftIndex < b.nftIndex) ∧
    (∀ voter, voter ∈ snapshot.voters ↔ ∃ index < 222, ∃ owner,
      Owned provider collection snapshot.snapshotBlock index owner ∧ voter = ballot index owner) ∧
    snapshot.totalVotingPower = snapshot.voters.length ∧
    snapshot.uniqueOwners = {owner | ∃ index < 222,
      Owned provider collection snapshot.snapshotBlock index owner}.ncard := by
  obtain ⟨other,progress,named,parsed',blocked,queried,address,total,voters,power,unique,metadata⟩ :=
    createSnapshot_ok created
  obtain rfl := Except.ok.inj (parsed.symm.trans parsed')
  rw [supply] at queried total
  have owners : (progress.ownerSet : Set JsString) = Address.friendly '' {owner | ∃ index < 222,
      Owned provider collection snapshot.snapshotBlock index owner} := by
    ext text
    rw [queried.owners,Finset.mem_coe,List.mem_toFinset,List.mem_map]
    constructor
    · rintro ⟨voter,member,rfl⟩
      obtain ⟨index,below,owner,owned,rfl⟩ := (queried.voters voter).mp member
      exact ⟨owner,⟨index,below,owned⟩,rfl⟩
    · rintro ⟨owner,⟨index,below,owned⟩,rfl⟩
      exact ⟨ballot index owner,(queried.voters _).mpr ⟨index,below,owner,owned,rfl⟩,rfl⟩
  have injective : Function.Injective Address.friendly := fun a b same => by
    have read := readable a
    rw [same,readable b] at read
    exact (Except.ok.inj read).symm
  rw [voters,power,unique]
  refine ⟨fun strict latest => ?_,fun ⟨index,below,failed⟩ => ?_,queried.ordered,queried.voters,rfl,?_⟩
  · have positive : IsPositive snapshot.snapshotBlock := by
      cases blockNumber with
      | none => exact latest rfl _ blocked
      | some given => exact explicit_positive blocked
    have checked : votersErrors parse 0 ∅ progress.voters = [] := by
      refine votersErrors_nil 0 (fun voter member => ⟨?_,Finset.notMem_empty _⟩) queried.ordered
      obtain ⟨index,below,owner,-,rfl⟩ := (queried.voters voter).mp member
      refine ⟨Int.natCast_nonneg index,by change (index : ℤ) < 222; omega,?_,rfl⟩
      change (parse owner.friendly).toOption ≠ none
      rw [readable]
      exact Option.some_ne_none _
    rw [verifySnapshot,List.isEmpty_iff]
    simp only [List.append_eq_nil_iff,line_eq_nil,voters,checked,address,total,power,unique,metadata,
      queried.owners,queried.whole strict]
    exact ⟨⟨⟨⟨⟨⟨positive.valid,named⟩,by simp⟩,trivial⟩,by simp⟩,by simp⟩,by simp⟩
  · have present : index ∈ progress.failedIndices := (queried.failures index).mpr ⟨below,failed⟩
    rw [verifySnapshot,Bool.eq_false_iff,Ne,List.isEmpty_iff]
    simp only [List.append_eq_nil_iff,line_eq_nil,metadata]
    rintro ⟨-,complete⟩
    exact complete (.inr (List.length_pos_of_mem present))
  · rw [← Set.ncard_image_of_injective _ injective,← owners,Set.ncard_coe_finset]

end Soundness

section Samples

def readAddress (text : JsString) : Except JsString Address :=
  match Address.parseFriendly text with
  | some address => .ok address
  | none => .error (js "Unknown address type")

def diamonds : Address := newAddress 0 1
def diamond : Address := newAddress 0 2
def holder : Address := newAddress 0 3

def diamondsConfig : GovernanceConfig := ⟨diamonds.friendly,222⟩

/-- Every item has an owner, and those below a bound are initialized. -/
def diamondsProvider (latest : Number) (bound : ℕ) : Provider where
  getLatestBlock := .ok latest
  getNFTAddress _ _ _ := .ok diamond
  getNFTData index _ _ := .ok ⟨index < bound,.finite index,diamonds,some holder⟩

def diamondsSnapshot (block : Number) (voters : List VoterSnapshot) (owners : ℤ) : Snapshot :=
  ⟨block,diamonds.friendly,222,voters,voters.length,owners,⟨governanceType,true,[]⟩⟩

theorem readAddress_friendly (address : Address) : readAddress address.friendly = .ok address := by
  rw [readAddress,Address.parseFriendly_friendly]

theorem eq_ok_of_toOption {result : Except JsString Snapshot} {snapshot : Snapshot}
    (made : result.toOption = some snapshot) : result = .ok snapshot := by
  cases result with
  | error message => cases made
  | ok made' => exact congrArg _ (Option.some.inj made)

theorem snapshot_sound_holder : (verifySnapshot readAddress (fun _ _ => [])
    (diamondsSnapshot (.finite 77) [ballot 0 holder] 1)).valid = true := by
  have created : createSnapshot readAddress diamondsConfig (diamondsProvider (.finite 77) 1) none
      false = .ok (diamondsSnapshot (.finite 77) [ballot 0 holder] 1) :=
    eq_ok_of_toOption (by decide +kernel)
  refine (snapshot_sound readAddress_friendly (fun _ _ => []) rfl created
    (readAddress_friendly diamonds)).1 rfl fun _ block latest => ?_
  cases latest
  change Number.lt (.finite 0) (.finite 77) = true
  decide +kernel

/-- An item that has an owner but is not initialized is left out, and a provider may name the block
zero. -/
theorem uninitialized_left_out :
    (createSnapshot readAddress diamondsConfig (diamondsProvider (.finite 77) 0) none false =
        .ok (diamondsSnapshot (.finite 77) [] 0) ∧
      ∃ data, Answered (diamondsProvider (.finite 77) 0) diamonds (.finite 77) 0 data ∧
        data.ownerAddress = some holder) ∧
    createSnapshot readAddress diamondsConfig (diamondsProvider (.finite 0) 0) none false =
        .ok (diamondsSnapshot (.finite 0) [] 0) ∧
      (verifySnapshot readAddress (fun _ _ => []) (diamondsSnapshot (.finite 0) [] 0)).valid =
        false := by
  refine ⟨⟨eq_ok_of_toOption (by decide +kernel),_,⟨diamond,rfl,rfl,?_,rfl⟩,rfl⟩,
    eq_ok_of_toOption (by decide +kernel),by decide +kernel⟩
  exact congrArg Number.finite Nat.cast_zero.symm

end Samples

end Tonbankcard.GovernanceSnapshot
