import AuraProtocol.Group.KeySchedule

/-!
# Sender keys

`protocol/group/sender_key.rs`: in an epoch every member has a chain of message
keys, numbered by generation, and a receiver keeps the keys of the generations it
skipped.  A chain carries the fact that its key has the size the constructors
check, so deriving a key fails only when the chain is exhausted.
-/

namespace AuraProtocol.Group

open Fallible List

variable {α : Type} {missing : ProtocolError}

/-! ## Chains -/

structure SenderKeyChain where
  leafIndex : ℕ
  chainKey : Bytes
  generation : ℕ
  enhanced : Bool
  maxGeneration : ℕ
  maxSkippedPerSender : ℕ
  length_chainKey : chainKey.length = chainKeyBytes

/-- Operations on a chain: a failing one hands back the chain it failed in. -/
abbrev ChainM := EStateM ProtocolError SenderKeyChain

namespace SenderKeyChain

def newWithPolicy (leafIndex : ℕ) (senderKeyBase : Bytes) (enhanced : Bool)
    (maxGeneration maxSkippedPerSender : ℕ) : Except ProtocolError SenderKeyChain :=
  if h : senderKeyBase.length = senderKeyBaseBytes then
    .ok ⟨leafIndex, senderKeyBase, 0, enhanced, maxGeneration, maxSkippedPerSender, h⟩
  else .error (.invalidInput "Invalid sender key base size")

def fromStateWithPolicy (leafIndex : ℕ) (chainKey : Bytes) (generation : ℕ) (enhanced : Bool)
    (maxGeneration maxSkippedPerSender : ℕ) : Except ProtocolError SenderKeyChain :=
  if h : chainKey.length = chainKeyBytes then
    .ok ⟨leafIndex, chainKey, generation, enhanced, maxGeneration, maxSkippedPerSender, h⟩
  else .error (.invalidInput "Invalid chain key size")

variable (c : Crypto)

/-- The message key of the current generation. -/
def messageKey (chain : SenderKeyChain) : Bytes :=
  c.hkdfExpand chain.chainKey groupMsgInfo messageKeyBytes

/-- The chain key of the next generation. -/
def nextChainKey (chain : SenderKeyChain) : Bytes :=
  let nextChain := c.hkdfExpand chain.chainKey groupChainInfo chainKeyBytes
  if chain.enhanced then c.blake2b256 groupBlake2bChainPersonalization [] nextChain else nextChain

theorem length_nextChainKey (chain : SenderKeyChain) :
    (chain.nextChainKey c).length = chainKeyBytes := by
  rw [nextChainKey]
  split_ifs
  · exact c.length_blake2b256 _ _ _
  · exact c.length_hkdfExpand _ _ _

/-- The chain at the next generation. -/
def advance (chain : SenderKeyChain) : SenderKeyChain :=
  { chain with
    chainKey := chain.nextChainKey c
    generation := chain.generation + 1
    length_chainKey := chain.length_nextChainKey c }

/-- `next_message_key`.  The chain key has 32 bytes, so neither expansion can fail. -/
def nextMessageKey : ChainM (ℕ × Bytes) := do
  let chain ← get
  lift (require (chain.generation < chain.maxGeneration) (.groupProtocol
    "Sender key chain exhausted — trigger epoch update"))
  set (chain.advance c)
  return (chain.generation, chain.messageKey c)

/-- The loop of `advance_to`: the keys of the next `n` generations. -/
def skipKeys : ℕ → ChainM (List (ℕ × Bytes))
  | 0 => pure []
  | n + 1 => do
    let key ← nextMessageKey c
    let rest ← skipKeys n
    return key :: rest

/-- `advance_to`: the key of the target generation and the keys skipped on the way. -/
def advanceTo (targetGeneration : ℕ) : ChainM (Bytes × List (ℕ × Bytes)) := do
  let chain ← get
  lift (require (chain.generation ≤ targetGeneration) (.replayAttack
    (s!"Sender key generation {targetGeneration} already consumed " ++
      s!"(current: {chain.generation})")))
  lift (require (targetGeneration < chain.maxGeneration)
    (.groupProtocol "Target generation exceeds maximum"))
  let skipCount := targetGeneration - chain.generation
  lift (require (skipCount ≤ chain.maxSkippedPerSender) (.groupProtocol
    s!"Too many skipped generations: {skipCount} (max {chain.maxSkippedPerSender})"))
  let skipped ← skipKeys c skipCount
  let (_, messageKey) ← nextMessageKey c
  return (messageKey, skipped)

end SenderKeyChain

/-! ## Walking a chain -/

namespace SenderKeyChain

variable (c : Crypto)

/-- The chain a number of generations later. -/
def walk (chain : SenderKeyChain) (n : ℕ) : SenderKeyChain := (advance c)^[n] chain

/-- The message key of a generation that is not behind the chain. -/
def keyAt (chain : SenderKeyChain) (generation : ℕ) : Bytes :=
  (chain.walk c (generation - chain.generation)).messageKey c

/-- The keys of the next generations. -/
def keysFrom (chain : SenderKeyChain) (n : ℕ) : List (ℕ × Bytes) :=
  (List.range n).map fun j => (chain.generation + j, (chain.walk c j).messageKey c)

/-- The generations whose keys `advance_to` gives. -/
def Reaches (chain : SenderKeyChain) (generation : ℕ) : Prop :=
  chain.generation ≤ generation ∧ generation < chain.maxGeneration ∧
    generation - chain.generation ≤ chain.maxSkippedPerSender

instance (chain : SenderKeyChain) (generation : ℕ) : Decidable (chain.Reaches generation) :=
  inferInstanceAs (Decidable (_ ∧ _ ∧ _))

variable {c} {chain chain' : SenderKeyChain}

theorem walk_succ' (n : ℕ) : chain.walk c (n + 1) = (chain.walk c n).advance c :=
  Function.iterate_succ_apply' _ n chain

theorem walk_add (m n : ℕ) : chain.walk c (m + n) = (chain.walk c m).walk c n := by
  rw [walk, walk, walk, Nat.add_comm, Function.iterate_add_apply]

/-- Walking changes the key and the generation only. -/
structure Follows (chain chain' : SenderKeyChain) : Prop where
  leafIndex : chain'.leafIndex = chain.leafIndex
  generation : chain.generation ≤ chain'.generation
  enhanced : chain'.enhanced = chain.enhanced
  maxGeneration : chain'.maxGeneration = chain.maxGeneration
  maxSkippedPerSender : chain'.maxSkippedPerSender = chain.maxSkippedPerSender

theorem generation_walk (chain : SenderKeyChain) (n : ℕ) :
    (chain.walk c n).generation = chain.generation + n := by
  induction n with
  | zero => rfl
  | succ n ih => rw [walk_succ', advance, ih, Nat.add_assoc]

theorem follows_walk (chain : SenderKeyChain) (n : ℕ) : chain.Follows (chain.walk c n) := by
  induction n with
  | zero => exact ⟨rfl, le_rfl, rfl, rfl, rfl⟩
  | succ n ih =>
    rw [walk_succ']
    exact ⟨ih.leafIndex, ih.generation.trans (Nat.le_succ _), ih.enhanced, ih.maxGeneration,
      ih.maxSkippedPerSender⟩

theorem keyAt_walk {n generation : ℕ} (h : chain.generation + n ≤ generation) :
    (chain.walk c n).keyAt c generation = chain.keyAt c generation := by
  rw [keyAt, keyAt, generation_walk, ← walk_add]
  congr 2
  omega

theorem nextMessageKey_of_lt (h : chain.generation < chain.maxGeneration) :
    (nextMessageKey c).run chain = .ok (chain.generation, chain.messageKey c) (chain.walk c 1) := by
  rw [nextMessageKey, get_bind_run, lift_bind_of_ok (a := ()) (require_eq_ok.mpr h)]
  rfl

theorem nextMessageKey_of_le (h : ¬ chain.generation < chain.maxGeneration) :
    ∃ e, (nextMessageKey c).run chain = .error e chain :=
  ⟨_, lift_bind_of_error (require_eq_error.mpr ⟨h, rfl⟩) chain⟩

theorem skipKeys_of_le {n : ℕ} (h : chain.generation + n ≤ chain.maxGeneration) :
    (skipKeys c n).run chain = .ok (chain.keysFrom c n) (chain.walk c n) := by
  induction n generalizing chain with
  | zero => rfl
  | succ n ih =>
    have hwalk := generation_walk (c := c) chain 1
    have hmax := (follows_walk (c := c) chain 1).maxGeneration
    rw [skipKeys, bind_of_ok (nextMessageKey_of_lt (by omega)), bind_of_ok (ih (by omega))]
    rw [← walk_add, Nat.add_comm 1 n, pure_run, keysFrom, keysFrom, range_succ_eq_map,
      map_cons, map_map, hwalk]
    congr 2
    refine map_congr_left fun j _ => ?_
    rw [Function.comp_apply, ← walk_add, Nat.succ_eq_add_one, Nat.add_comm 1 j, Nat.add_assoc,
      Nat.add_comm 1 j]

theorem advanceTo_of_reaches {generation : ℕ} (h : chain.Reaches generation) :
    (advanceTo c generation).run chain =
      .ok (chain.keyAt c generation, chain.keysFrom c (generation - chain.generation))
        (chain.walk c (generation + 1 - chain.generation)) := by
  obtain ⟨hle, hlt, hskip⟩ := h
  have hwalk := generation_walk (c := c) chain (generation - chain.generation)
  have hmax := (follows_walk (c := c) chain
    (generation - chain.generation)).maxGeneration
  rw [advanceTo, get_bind_run, lift_bind_of_ok (a := ()) (require_eq_ok.mpr hle),
    lift_bind_of_ok (a := ()) (require_eq_ok.mpr hlt),
    lift_bind_of_ok (a := ()) (require_eq_ok.mpr hskip), bind_of_ok (skipKeys_of_le (by omega)),
    bind_of_ok (nextMessageKey_of_lt (by omega)), ← walk_add, Nat.sub_add_comm hle]
  rfl

theorem advanceTo_of_not_reaches {generation : ℕ} (h : ¬ chain.Reaches generation) :
    ∃ e, (advanceTo c generation).run chain = .error e chain := by
  rw [advanceTo, get_bind_run]
  by_cases hle : chain.generation ≤ generation
  · rw [lift_bind_of_ok (a := ()) (require_eq_ok.mpr hle)]
    by_cases hlt : generation < chain.maxGeneration
    · rw [lift_bind_of_ok (a := ()) (require_eq_ok.mpr hlt)]
      exact ⟨_, lift_bind_of_error (require_eq_error.mpr ⟨fun hs => h ⟨hle, hlt, hs⟩, rfl⟩) chain⟩
    · exact ⟨_, lift_bind_of_error (require_eq_error.mpr ⟨hlt, rfl⟩) chain⟩
  · exact ⟨_, lift_bind_of_error (require_eq_error.mpr ⟨hle, rfl⟩) chain⟩

end SenderKeyChain

/-! ## The store of an epoch -/

structure SenderKeyStore where
  chains : List (ℕ × SenderKeyChain)
  skippedKeys : OrdMap (ℕ ×ₗ ℕ) Bytes
  maxSkippedPerSender : ℕ
  maxSkippedTotal : ℕ

/-- Operations on a store. -/
abbrev StoreM := EStateM ProtocolError SenderKeyStore

namespace SenderKeyStore

variable (c : Crypto)

def newEpochWithPolicy (epochSecret : Bytes) (leafIndices : List ℕ) (groupContextHash : Bytes)
    (enhanced : Bool) (maxGeneration maxSkippedPerSender : ℕ) :
    Except ProtocolError SenderKeyStore := do
  let chains ← leafIndices.mapM fun leafIdx => do
    let base ← GroupKeySchedule.deriveSenderKeyBase c epochSecret leafIdx groupContextHash
    let chain ← SenderKeyChain.newWithPolicy leafIdx base enhanced maxGeneration
      maxSkippedPerSender
    return (leafIdx, chain)
  return { chains, skippedKeys := ∅, maxSkippedPerSender, maxSkippedTotal := maxSkippedSenderKeys }

def fromChains (chains : OrdMap ℕ SenderKeyChain) (maxSkippedPerSender : ℕ) : SenderKeyStore where
  chains := chains.toList
  skippedKeys := ∅
  maxSkippedPerSender := maxSkippedPerSender
  maxSkippedTotal := maxSkippedSenderKeys

/-- `get_chain`: the first chain of a leaf. -/
def getChain (s : SenderKeyStore) (leafIndex : ℕ) : Option SenderKeyChain :=
  (s.chains.find? fun entry => entry.1 == leafIndex).map (·.2)

/-- Replaces the first entry with a given key. -/
def replaceFirst (leafIndex : ℕ) (chain : SenderKeyChain) :
    List (ℕ × SenderKeyChain) → List (ℕ × SenderKeyChain)
  | [] => []
  | entry :: rest =>
    if entry.1 == leafIndex then (entry.1, chain) :: rest
    else entry :: replaceFirst leafIndex chain rest

/-- Runs an operation on the chain that `get_chain_mut` finds. -/
def onChain {α : Type} (leafIndex : ℕ) (missing : ProtocolError) (x : ChainM α) : StoreM α := do
  let store ← get
  let chain ← lift (orError (store.getChain leafIndex) missing)
  zoom (fun _ => chain)
    (fun s chain' => { s with chains := replaceFirst leafIndex chain' s.chains }) x

def nextOwnMessageKey (myLeafIndex : ℕ) : StoreM (ℕ × Bytes) :=
  onChain myLeafIndex (.groupProtocol "Own sender key chain not found")
    (SenderKeyChain.nextMessageKey c)

/-- The keys cached for a sender, oldest generation first. -/
def cachedOf (skipped : OrdMap (ℕ ×ₗ ℕ) Bytes) (sender : ℕ) : List (ℕ ×ₗ ℕ) :=
  (skipped.toList.map (·.1)).filter fun key => (ofLex key).1 == sender

/-- The first loop of `enforce_cache_limit`, for one sender: evicts the oldest keys over the
limit. -/
def evictSender (limit : ℕ) (skipped : OrdMap (ℕ ×ₗ ℕ) Bytes) (sender : ℕ) :
    OrdMap (ℕ ×ₗ ℕ) Bytes :=
  let keys := cachedOf skipped sender
  (keys.take (keys.length - limit)).foldl OrdMap.erase skipped

/-- `enforce_cache_limit`: first each sender's keys, then all of them. -/
def enforceCacheLimit (s : SenderKeyStore) : SenderKeyStore :=
  let senders := (s.skippedKeys.toList.map fun entry => (ofLex entry.1).1).dedup
  { s with
    skippedKeys :=
      (senders.foldl (evictSender s.maxSkippedPerSender) s.skippedKeys).popTo s.maxSkippedTotal }

/-- Caches the keys of skipped generations. -/
def cacheSkipped (s : SenderKeyStore) (senderLeafIndex : ℕ) (skipped : List (ℕ × Bytes)) :
    SenderKeyStore :=
  { s with
    skippedKeys :=
      skipped.foldl (fun m (gen, key) => m.insert (toLex (senderLeafIndex, gen)) key) s.skippedKeys }

def getMessageKey (senderLeafIndex generation : ℕ) : StoreM Bytes := do
  let store ← get
  match store.skippedKeys.get? (toLex (senderLeafIndex, generation)) with
  | some key =>
    set { store with skippedKeys := store.skippedKeys.erase (toLex (senderLeafIndex, generation)) }
    return key
  | none =>
    let noChain := ProtocolError.groupProtocol s!"No sender key chain for leaf {senderLeafIndex}"
    let chain ← lift (orError (store.getChain senderLeafIndex) noChain)
    lift (require (chain.generation ≤ generation) (.replayAttack
      s!"Generation {generation} already consumed for sender {senderLeafIndex}"))
    if generation = chain.generation then
      let (_, key) ← onChain senderLeafIndex noChain (SenderKeyChain.nextMessageKey c)
      return key
    else
      let (messageKey, skipped) ← onChain senderLeafIndex noChain
        (SenderKeyChain.advanceTo c generation)
      modify fun s => (s.cacheSkipped senderLeafIndex skipped).enforceCacheLimit
      return messageKey

def exportChains (s : SenderKeyStore) : List (ℕ × Bytes × ℕ) :=
  s.chains.map fun (_, chain) => (chain.leafIndex, chain.chainKey, chain.generation)

variable {c}

section Lookup

variable {chains : List (ℕ × SenderKeyChain)} {i j : ℕ} {chain chain' : SenderKeyChain}

theorem find?_replaceFirst_self (h : chains.find? (fun e => e.1 == i) = some (j, chain)) :
    (replaceFirst i chain' chains).find? (fun e => e.1 == i) = some (j, chain') := by
  induction chains with
  | nil => cases h
  | cons entry rest ih =>
    rw [replaceFirst]
    rw [List.find?_cons] at h
    split at h
    · rename_i heq
      cases h
      rw [if_pos heq, List.find?_cons, heq]
    · rename_i heq
      rw [if_neg (by rw [heq]; decide), List.find?_cons, heq]
      exact ih h

theorem find?_replaceFirst_of_ne (h : j ≠ i) :
    (replaceFirst i chain' chains).find? (fun e => e.1 == j) =
      chains.find? (fun e => e.1 == j) := by
  induction chains with
  | nil => rfl
  | cons entry rest ih =>
    rw [replaceFirst]
    split_ifs with heq
    · have hne : (entry.1 == j) = false := by
        rw [beq_eq_false_iff_ne, eq_of_beq heq]
        exact h.symm
      rw [List.find?_cons, List.find?_cons]
      simp only [hne]
    · rw [List.find?_cons, List.find?_cons, ih]

theorem replaceFirst_self (h : chains.find? (fun e => e.1 == i) = some (j, chain)) :
    replaceFirst i chain chains = chains := by
  induction chains with
  | nil => rfl
  | cons entry rest ih =>
    rw [replaceFirst]
    rw [List.find?_cons] at h
    split at h
    · rename_i heq
      cases h
      rw [if_pos heq]
    · rename_i heq
      rw [if_neg (by rw [heq]; decide), ih h]

theorem map_fst_replaceFirst (chains : List (ℕ × SenderKeyChain)) :
    (replaceFirst i chain' chains).map Prod.fst = chains.map Prod.fst := by
  induction chains with
  | nil => rfl
  | cons entry rest ih =>
    rw [replaceFirst]
    split_ifs
    · rfl
    · rw [map_cons, map_cons, ih]

theorem mem_replaceFirst {entry : ℕ × SenderKeyChain} (h : entry ∈ replaceFirst i chain' chains) :
    entry = (i, chain') ∨ entry ∈ chains := by
  induction chains with
  | nil => cases h
  | cons e rest ih =>
    rw [replaceFirst] at h
    split_ifs at h with heq
    · rcases mem_cons.mp h with rfl | h
      · exact .inl (by rw [eq_of_beq heq])
      · exact .inr (mem_cons_of_mem _ h)
    · rcases mem_cons.mp h with rfl | h
      · exact .inr mem_cons_self
      · exact (ih h).imp_right (mem_cons_of_mem _)

end Lookup

/-- The store with another chain for a leaf. -/
def setChain (store : SenderKeyStore) (leafIndex : ℕ) (chain : SenderKeyChain) : SenderKeyStore :=
  { store with chains := replaceFirst leafIndex chain store.chains }

variable {store : SenderKeyStore} {i j : ℕ} {chain chain' : SenderKeyChain}

theorem getChain_eq_some :
    store.getChain i = some chain ↔ ∃ j, store.chains.find? (fun e => e.1 == i) = some (j, chain) := by
  rw [getChain, Option.map_eq_some_iff]
  constructor
  · rintro ⟨⟨j, _⟩, h, heq⟩
    exact ⟨j, h.trans (by rw [← heq])⟩
  · rintro ⟨j, h⟩
    exact ⟨_, h, rfl⟩

theorem getChain_setChain_self (h : store.getChain i = some chain) :
    (store.setChain i chain').getChain i = some chain' := by
  obtain ⟨j, hj⟩ := getChain_eq_some.mp h
  exact getChain_eq_some.mpr ⟨j, find?_replaceFirst_self hj⟩

theorem getChain_setChain_of_ne (h : j ≠ i) :
    (store.setChain i chain').getChain j = store.getChain j :=
  congrArg (Option.map Prod.snd) (find?_replaceFirst_of_ne h)

theorem setChain_self (h : store.getChain i = some chain) : store.setChain i chain = store := by
  obtain ⟨j, hj⟩ := getChain_eq_some.mp h
  rw [setChain, replaceFirst_self hj]

theorem onChain_of_ok {x : ChainM α} {a : α} (h : store.getChain i = some chain)
    (hx : x.run chain = .ok a chain') :
    (onChain i missing x).run store = .ok a (store.setChain i chain') := by
  rw [onChain, get_bind_run, lift_bind_of_ok (orError_eq_ok.mpr h)]
  exact zoom_eq_ok.mpr ⟨chain', hx, rfl⟩

theorem onChain_of_error {e : ProtocolError} {x : ChainM α} (h : store.getChain i = some chain)
    (hx : x.run chain = .error e chain) : (onChain i missing x).run store = .error e store := by
  rw [onChain, get_bind_run, lift_bind_of_ok (orError_eq_ok.mpr h)]
  exact zoom_eq_error.mpr ⟨chain, hx, (setChain_self h).symm⟩

theorem onChain_of_none {x : ChainM α} (h : store.getChain i = none) :
    (onChain i missing x).run store = .error missing store := by
  rw [onChain, get_bind_run]
  exact lift_bind_of_error (by rw [h]; rfl) store

variable (c) in
/-- The store after the key of a generation was taken from a chain. -/
def consume (store : SenderKeyStore) (leafIndex : ℕ) (chain : SenderKeyChain) (generation : ℕ) :
    SenderKeyStore :=
  let next := store.setChain leafIndex (chain.walk c (generation + 1 - chain.generation))
  if generation = chain.generation then next
  else (next.cacheSkipped leafIndex
    (chain.keysFrom c (generation - chain.generation))).enforceCacheLimit

variable {generation : ℕ} {key : Bytes}

/-- How `get_message_key` runs: a cached key is taken out; otherwise the sender's chain gives the key
of a generation that it reaches.  It fails in all other cases and then changes nothing. -/
theorem getMessageKey_run (store : SenderKeyStore) (i generation : ℕ) :
    (∃ key, store.skippedKeys.get? (toLex (i, generation)) = some key ∧
      (getMessageKey c i generation).run store = .ok key
        { store with skippedKeys := store.skippedKeys.erase (toLex (i, generation)) }) ∨
    store.skippedKeys.get? (toLex (i, generation)) = none ∧
      ((∃ chain, store.getChain i = some chain ∧ chain.Reaches generation ∧
        (getMessageKey c i generation).run store =
          .ok (chain.keyAt c generation) (store.consume c i chain generation)) ∨
      (∀ chain, store.getChain i = some chain → ¬ chain.Reaches generation) ∧
        ∃ e, (getMessageKey c i generation).run store = .error e store) := by
  rw [getMessageKey, get_bind_run]
  cases hskipped : store.skippedKeys.get? (toLex (i, generation)) with
  | some key => exact .inl ⟨key, rfl, rfl⟩
  | none =>
    refine .inr ⟨rfl, ?_⟩
    cases hchain : store.getChain i with
    | none => exact .inr ⟨fun _ h => (by cases h), _, lift_bind_of_error rfl store⟩
    | some chain =>
      simp only [Option.some.injEq, exists_eq_left', forall_eq']
      rw [lift_bind_of_ok (orError_eq_ok.mpr rfl)]
      by_cases hle : chain.generation ≤ generation
      · rw [lift_bind_of_ok (a := ()) (require_eq_ok.mpr hle)]
        by_cases heq : generation = chain.generation
        · rw [if_pos heq]
          by_cases hlt : chain.generation < chain.maxGeneration
          · refine .inl ⟨⟨hle, by omega, by omega⟩, ?_⟩
            rw [bind_of_ok (onChain_of_ok hchain (SenderKeyChain.nextMessageKey_of_lt hlt)), heq,
              SenderKeyChain.keyAt, consume, if_pos rfl, Nat.sub_self, Nat.add_sub_cancel_left]
            rfl
          · obtain ⟨e, he⟩ := SenderKeyChain.nextMessageKey_of_le (c := c) hlt
            exact .inr ⟨fun h => hlt (heq ▸ h.2.1), e, bind_of_error (onChain_of_error hchain he)⟩
        · rw [if_neg heq]
          by_cases hreach : chain.Reaches generation
          · refine .inl ⟨hreach, ?_⟩
            rw [bind_of_ok (onChain_of_ok hchain (SenderKeyChain.advanceTo_of_reaches hreach)),
              consume, if_neg heq]
            rfl
          · obtain ⟨e, he⟩ := SenderKeyChain.advanceTo_of_not_reaches (c := c) hreach
            exact .inr ⟨hreach, e, bind_of_error (onChain_of_error hchain he)⟩
      · exact .inr ⟨fun h => hle h.1, _,
          lift_bind_of_error (require_eq_error.mpr ⟨hle, rfl⟩) store⟩

/-- How `next_own_message_key` runs. -/
theorem nextOwnMessageKey_run (store : SenderKeyStore) (i : ℕ) :
    (∃ chain, store.getChain i = some chain ∧ chain.generation < chain.maxGeneration ∧
      (nextOwnMessageKey c i).run store = .ok (chain.generation, chain.messageKey c)
        (store.setChain i (chain.walk c 1))) ∨
    (∀ chain, store.getChain i = some chain → ¬ chain.generation < chain.maxGeneration) ∧
      ∃ e, (nextOwnMessageKey c i).run store = .error e store := by
  cases hchain : store.getChain i with
  | none => exact .inr ⟨fun _ h => (by cases h), _, onChain_of_none hchain⟩
  | some chain =>
    simp only [Option.some.injEq, exists_eq_left', forall_eq']
    by_cases hlt : chain.generation < chain.maxGeneration
    · exact .inl ⟨hlt, onChain_of_ok hchain (SenderKeyChain.nextMessageKey_of_lt hlt)⟩
    · obtain ⟨e, he⟩ := SenderKeyChain.nextMessageKey_of_le (c := c) hlt
      exact .inr ⟨hlt, e, onChain_of_error hchain he⟩

end SenderKeyStore

end AuraProtocol.Group
