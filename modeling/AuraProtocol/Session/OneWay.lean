import AuraProtocol.Session.Backlog
import AuraProtocol.Session.Conversation

/-!
# One-directional runs

A sender sends as it likes and a receiver, which never sends, gets the packets in
any order, some of them more than once.  As long as each ratchet arrives after
the earlier ratchets and before the messages that follow it, no more keys are
outstanding than the cache holds, and no packet is too many epochs late, every
packet decrypts to its message the first time it arrives and never again
(`decrypts_once`).
-/

namespace AuraProtocol.Session

open Fallible List

variable {clock : Clock} {k : ℕ} {p : Parcel}

/-! ## Runs -/

/-- A sender and a receiver, with all packets sent so far. -/
structure OneWay where
  sender : SessionInner
  receiver : SessionInner
  sent : List Packet
  /-- The nonce prefixes the sender has drawn. -/
  prefixes : List Bytes
  /-- The deliveries, newest first: the position of the packet, and the plaintext if there is one. -/
  log : List (ℕ × Option Bytes)

namespace OneWay

/-- What can happen: a packet is sent, or one of the packets sent so far is delivered. -/
inductive Event
  | send (clock : Clock) (rnd : Entropy) (m : Message)
  | deliver (k : ℕ) (clock : Clock)

/-- The effect of an event. -/
def exec (c : Crypto) (w : Wire) (L : OneWay) : Event → OneWay
  | .send clock rnd m =>
    match (encrypt c w clock rnd m).run L.sender with
    | .ok envelope s =>
      { L with
        sender := s
        sent := L.sent ++ [{ envelope := envelope, message := m }]
        prefixes := rnd.noncePrefix :: L.prefixes }
    | .error _ s => { L with sender := s }
  | .deliver k clock =>
    match L.sent[k]? with
    | none => L
    | some p =>
      match (decrypt c w clock p.envelope).run L.receiver with
      | .ok result r => { L with receiver := r, log := (k, some result.plaintext) :: L.log }
      | .error _ r => { L with receiver := r, log := (k, none) :: L.log }

/-- The two sessions of a handshake, before anything was sent. -/
def start (sender receiver : SessionInner) : OneWay where
  sender := sender
  receiver := receiver
  sent := []
  prefixes := drawnPrefixes sender
  log := []

/-- The positions of the packets that were delivered. -/
def delivered (L : OneWay) : Finset ℕ := (L.log.map Prod.fst).toFinset

/-- What the deliveries of a packet led to, newest first. -/
def outcomes (L : OneWay) (k : ℕ) : List (Option Bytes) :=
  (L.log.filter fun d => d.1 = k).map Prod.snd

/-- The epoch of the packet at a position. -/
def epochAt (sent : List Packet) (k : ℕ) : ℕ :=
  ((sent[k]?).map fun p => p.envelope.ratchetEpoch).getD 0

/-- Whether the packet at a position carries a ratchet. -/
def isRatchetAt (sent : List Packet) (k : ℕ) : Bool :=
  ((sent[k]?).map fun p => p.envelope.hasRatchetHeader).getD false

/-- No packet at the positions is too many epochs later than the one at `k`. -/
def InTime (sent : List Packet) (D : Finset ℕ) (k : ℕ) : Prop :=
  ∀ j ∈ D, epochAt sent j ≤ epochAt sent k + maxSkippedKeyEpochAge

instance (sent : List Packet) (D : Finset ℕ) (k : ℕ) : Decidable (InTime sent D k) :=
  inferInstanceAs (Decidable (∀ j ∈ D, _))

/-- The packets whose keys are outstanding once those at the positions `D` were delivered: they
were overtaken, and can still arrive in time. -/
def outstanding (sent : List Packet) (D : Finset ℕ) : Finset ℕ :=
  (Finset.range sent.length).filter fun j => j ∉ D ∧ (∃ k ∈ D, j < k) ∧ InTime sent D j

/-- Nonce prefixes do not repeat.  A packet that is delivered for the first time meets a session
that has not expired, comes after all ratchets before it, is in time, and does not lead to more
outstanding keys than the cache holds. -/
def Admissible (L : OneWay) : Event → Prop
  | .send _ rnd _ => rnd.noncePrefix ∉ L.prefixes
  | .deliver k clock => k ∈ L.delivered ∨
      ((∃ now, clock.activity = .ok now) ∧
        checkInnerExpired L.receiver.state clock.expiry = .ok false) ∧
      (∀ j < k, isRatchetAt L.sent j = true → j ∈ L.delivered) ∧ InTime L.sent L.delivered k ∧
      (outstanding L.sent (insert k L.delivered)).card ≤ maxSkippedMessageKeys

instance (L : OneWay) : (e : Event) → Decidable (Admissible L e)
  | .send _ rnd _ => inferInstanceAs (Decidable (rnd.noncePrefix ∉ L.prefixes))
  | .deliver k clock => inferInstanceAs (Decidable (k ∈ L.delivered ∨
      ((∃ now, clock.activity = .ok now) ∧
        checkInnerExpired L.receiver.state clock.expiry = .ok false) ∧
      (∀ j < k, isRatchetAt L.sent j = true → j ∈ L.delivered) ∧ InTime L.sent L.delivered k ∧
      (outstanding L.sent (insert k L.delivered)).card ≤ maxSkippedMessageKeys))

/-- The runs from the sessions of a handshake. -/
inductive Reaches (c : Crypto) (w : Wire) : OneWay → Prop
  | start {sender receiver : SessionInner} : HonestPair c sender receiver →
      Reaches c w (OneWay.start sender receiver)
  | step {L : OneWay} {e : Event} : Reaches c w L → Admissible L e → Reaches c w (L.exec c w e)

/-! ## The invariant -/

/-- The sender's packets lead from the receiver's first view, through the view it is at, to the
sender's view. -/
structure Underway (c : Crypto) (w : Wire) (r₀ : SessionInner) (L : OneWay) (v₀ v v' : View)
    (passed ahead : List Parcel) : Prop where
  packets : (passed ++ ahead).map Parcel.toPacket = L.sent
  receiver : Receiver c w r₀ v₀ passed L.delivered v L.receiver
  run : Run (Carries c w r₀) v ahead v'
  party : Party r₀
  sendsAt : SendsAt c L.sender v'
  rootKey : L.sender.state.rootKey = v'.rootKey
  keys : KeysMatch c L.sender.state.dhRemotePublic L.sender.state.kyberRemotePublic r₀
  sameSession : SameSession L.sender.state r₀.state
  sameMax : L.sender.state.maxMessagesPerChain = r₀.state.maxMessagesPerChain
  count : L.sender.state.totalMessagesSent = L.sent.length
  count_le : L.sent.length ≤ u64Max
  drawn : DrawnFrom L.sender L.prefixes
  spent : ∀ p ∈ passed ++ ahead, Spent L.sender L.prefixes p.nonce
  nodup : ((passed ++ ahead).map Parcel.nonce).Nodup
  outcomes : ∀ k p, L.sent[k]? = some p → k ∈ L.delivered →
    ∃ n, L.outcomes k = List.replicate n none ++ [some p.message.payload]

section Underway

variable {c : Crypto} {w : Wire} {r₀ : SessionInner} {L : OneWay} {v₀ v v' : View}
  {passed ahead : List Parcel}

section

variable (h : Underway c w r₀ L v₀ v v' passed ahead)
include h

theorem Underway.line :
    Run (Carries c w r₀) v₀ (passed ++ ahead) v' := h.receiver.run.append h.run

theorem Underway.sent_eq
    (hp : (passed ++ ahead)[k]? = some p) : L.sent[k]? = some p.toPacket := by
  rw [← h.packets, List.getElem?_map, hp]
  rfl

theorem Underway.epochAt_eq
    (hp : (passed ++ ahead)[k]? = some p) : epochAt L.sent k = p.epoch := by
  rw [epochAt, h.sent_eq hp]
  exact line_ratchetEpoch h.line p (mem_of_getElem? hp)

theorem Underway.isRatchetAt_eq
    (hp : (passed ++ ahead)[k]? = some p) : isRatchetAt L.sent k = p.envelope.hasRatchetHeader := by
  rw [isRatchetAt, h.sent_eq hp]
  rfl

theorem Underway.length_eq :
    L.sent.length = (passed ++ ahead).length := by
  rw [← h.packets, length_map]

/-- The sender sends another packet. -/
theorem Underway.send {rnd : Entropy} {m : Message}
    {envelope : SecureEnvelope} {s : SessionInner}
    (hsent : Sent c w clock rnd m L.sender envelope s) (hfresh : rnd.noncePrefix ∉ L.prefixes) :
    ∃ p v'', Underway c w r₀
      { L with
        sender := s
        sent := L.sent ++ [{ envelope := envelope, message := m }]
        prefixes := rnd.noncePrefix :: L.prefixes } v₀ v v'' passed (ahead ++ [p]) := by
  obtain ⟨p, v'', hpacket, hnonce, hcarries, hat, hkeys⟩ :=
    hsent.carries h.sendsAt h.sameSession h.sameMax fun _ => ⟨h.rootKey, h.keys⟩
  obtain ⟨hdrawn, hspent, hold⟩ := hsent.spent h.drawn hfresh
  have henvelope : p.envelope = envelope := congrArg Packet.envelope hpacket
  obtain ⟨htotal, htotal_le⟩ := hsent.totalMessagesSent
  have hside := hsent.recvSide
  have hlen : (L.sent ++ [Packet.mk envelope m]).length =
      s.state.totalMessagesSent := by
    rw [htotal, h.count, length_append, length_singleton]
  rw [← hnonce] at hspent hold
  refine ⟨p, v'', {
    packets := ?_
    receiver := h.receiver
    run := h.run.snoc hcarries
    party := h.party
    sendsAt := hat
    rootKey := ?_
    keys := ?_
    sameSession := ⟨hside.sameSession.1.trans h.sameSession.1,
      hside.sameSession.2.trans h.sameSession.2⟩
    sameMax := hside.maxMessagesPerChain.trans h.sameMax
    count := hlen.symm
    count_le := hlen.trans_le htotal_le
    drawn := hdrawn
    spent := ?_
    nodup := ?_
    outcomes := ?_ }⟩
  · rw [← append_assoc, map_append, h.packets, ← hpacket]
    rfl
  · rcases hkeys with ⟨hheader, hsameKeys⟩ | ⟨-, -, hroot⟩
    · have hsameRatchet := hcarries.sameRatchet (henvelope ▸ hheader)
      exact hsameKeys.rootKey.trans (h.rootKey.trans hsameRatchet.rootKey.symm)
    · exact hroot
  · rw [hside.dhRemotePublic, hside.kyberRemotePublic]
    exact h.keys
  · rw [← append_assoc]
    intro q hq
    rcases mem_append.mp hq with hq | hq
    · exact (hold _ (h.spent q hq)).1
    · rw [mem_singleton.mp hq]
      exact hspent
  · rw [← append_assoc, map_append, nodup_append]
    refine ⟨h.nodup, nodup_singleton _, fun n hn n' hn' => ?_⟩
    obtain ⟨q, hq, rfl⟩ := mem_map.mp hn
    rw [mem_singleton.mp hn']
    exact (hold _ (h.spent q hq)).2
  · intro k q hq hk
    refine h.outcomes k q ?_ hk
    have hlt : k < L.sent.length := by
      have := h.receiver.delivered_lt k hk
      rw [h.length_eq, length_append]
      omega
    exact (List.getElem?_append_left hlt).symm.trans hq

theorem Underway.canReceive {now : ℕ}
    (hclock : clock.activity = .ok now)
    (hexpired : checkInnerExpired L.receiver.state clock.expiry = .ok false)
    (hlt : k < L.sent.length) (hk : k ∉ L.delivered) : CanReceive clock L.receiver now := by
  have hparty := h.party.of_sendSide h.receiver.sendSide
  have hsub : insert k L.delivered ⊆ Finset.range L.sent.length := by
    intro j hj
    rw [Finset.mem_range]
    rcases Finset.mem_insert.mp hj with rfl | hj
    · exact hlt
    · have := h.receiver.delivered_lt j hj
      rw [h.length_eq, length_append]
      omega
  have hcard := Finset.card_le_card hsub
  rw [Finset.card_insert_of_notMem hk, Finset.card_range, ← h.receiver.total] at hcard
  exact ⟨hparty.alive, hexpired, hclock, hcard.trans h.count_le,
    h.receiver.recvAt.metadataKey ▸ v.length_metadataKey, hparty.maxMessagesPerChain⟩

/-- The nonce of a packet that was not delivered is new to the receiver. -/
theorem Underway.fresh
    (hp : (passed ++ ahead)[k]? = some p) (hk : k ∉ L.delivered) :
    p.nonce ∉ L.receiver.seenPayloadNonces := by
  intro hmem
  obtain ⟨j, hj, q, hq, hnonce⟩ := h.receiver.seen _ hmem
  have hq' : (passed ++ ahead)[j]? = some q := by
    rwa [List.getElem?_append_left (h.receiver.delivered_lt j hj)]
  have hlt : j < ((passed ++ ahead).map Parcel.nonce).length := by
    rw [length_map]
    exact (List.getElem?_eq_some_iff.mp hq').1
  have heq : j = k := by
    refine (List.getElem?_inj hlt h.nodup).mp ?_
    rw [List.getElem?_map, List.getElem?_map, hp, hq', Option.map_some, Option.map_some, hnonce]
  exact hk (heq ▸ hj)

/-- The keys owed once a packet ahead was delivered are outstanding. -/
theorem Underway.owed_subset {seg rest : List Parcel}
    (hahead : ahead = (seg ++ [p]) ++ rest) {v₁ : View}
    (hrun : Run (Carries c w r₀) v₀ (passed ++ (seg ++ [p])) v₁) :
    owed (passed ++ (seg ++ [p])) (insert (passed.length + seg.length) L.delivered) v₁.epoch ⊆
      outstanding L.sent (insert (passed.length + seg.length) L.delivered) := by
  have hline : ∀ j q, (passed ++ (seg ++ [p]))[j]? = some q → epochAt L.sent j = q.epoch := by
    intro j q hq
    refine h.epochAt_eq ?_
    rw [hahead, ← append_assoc, List.getElem?_append_left (List.getElem?_eq_some_iff.mp hq).1]
    exact hq
  have hlen : (passed ++ (seg ++ [p])).length = passed.length + seg.length + 1 := by
    rw [length_append, length_append, length_singleton, Nat.add_assoc]
  have hsent : (passed ++ (seg ++ [p])).length ≤ L.sent.length := by
    simp only [h.length_eq, hahead, length_append]
    omega
  intro j hj
  have hlt : j < (passed ++ (seg ++ [p])).length :=
    Finset.mem_range.mp (Finset.mem_filter.mp hj).1
  have hq := List.getElem?_eq_getElem hlt
  obtain ⟨hjD, hepoch⟩ := (mem_owed hq).mp hj
  have hne : j ≠ passed.length + seg.length := by
    rintro rfl
    exact hjD (Finset.mem_insert_self _ _)
  refine Finset.mem_filter.mpr ⟨Finset.mem_range.mpr (hlt.trans_le hsent), hjD,
    ⟨_, Finset.mem_insert_self _ _, by omega⟩, fun j' hj' => ?_⟩
  have hlt' : j' < (passed ++ (seg ++ [p])).length := by
    rcases Finset.mem_insert.mp hj' with rfl | hj'
    · omega
    · have := h.receiver.delivered_lt j' hj'
      omega
  have hq' := List.getElem?_eq_getElem hlt'
  have hslot := slot_lt_slot.mp ((line_sorted hrun).1 _ (mem_of_getElem? hq')).2
  rw [hline j _ hq, hline j' _ hq']
  omega

/-- The receiver is in the epoch of the last packet it passed. -/
theorem Underway.epoch_le (hp : passed[k]? = some p)
    (hin : InTime L.sent L.delivered k) : v.epoch ≤ p.epoch + maxSkippedKeyEpochAge := by
  have hne : passed ≠ [] := by
    rintro rfl
    cases hp
  have hlast := h.receiver.last hne
  have hlt := h.receiver.delivered_lt _ hlast
  have hget : ∀ j q, passed[j]? = some q → epochAt L.sent j = q.epoch := by
    intro j q hq
    refine h.epochAt_eq ?_
    rwa [List.getElem?_append_left (List.getElem?_eq_some_iff.mp hq).1]
  have hle := hin _ hlast
  rw [hget k p hp, hget _ _ (List.getElem?_eq_getElem hlt), ← getLast_eq_getElem hne] at hle
  rwa [line_epoch_getLast h.receiver.run hne] at hle

end

theorem exists_split_of_getElem? {ps : List Parcel} {i : ℕ} (h : ps[i]? = some p) :
    ∃ seg rest, ps = (seg ++ [p]) ++ rest ∧ seg.length = i := by
  obtain ⟨hlt, rfl⟩ := List.getElem?_eq_some_iff.mp h
  refine ⟨ps.take i, ps.drop (i + 1), ?_, length_take_of_le hlt.le⟩
  rw [append_assoc, singleton_append, getElem_cons_drop, take_append_drop]

/-- If all ratchets before a packet were delivered, none is between the receiver and it. -/
theorem Underway.seg_free {seg rest : List Parcel}
    (h : Underway c w r₀ L v₀ v v' passed (seg ++ rest))
    (hratchets : ∀ j < passed.length + seg.length, isRatchetAt L.sent j = true → j ∈ L.delivered) :
    ∀ q ∈ seg, q.envelope.hasRatchetHeader = false := by
  intro q hq
  obtain ⟨j, hj⟩ := mem_iff_getElem?.mp hq
  have hlt := (List.getElem?_eq_some_iff.mp hj).1
  have hq' : (passed ++ (seg ++ rest))[passed.length + j]? = some q := by
    rw [List.getElem?_append_right (Nat.le_add_right _ _), Nat.add_sub_cancel_left,
      List.getElem?_append_left hlt, hj]
  by_contra hheader
  rw [Bool.not_eq_false, ← h.isRatchetAt_eq hq'] at hheader
  have := h.receiver.delivered_lt _ (hratchets _ (by omega) hheader)
  omega

/-- A packet that is delivered for the first time decrypts. -/
theorem Underway.deliverFirst (hc : c.Correct) (h : Underway c w r₀ L v₀ v v' passed ahead)
    {now : ℕ} (hp : (passed ++ ahead)[k]? = some p) (hk : k ∉ L.delivered)
    (hclock : clock.activity = .ok now)
    (hexpired : checkInnerExpired L.receiver.state clock.expiry = .ok false)
    (hratchets : ∀ j < k, isRatchetAt L.sent j = true → j ∈ L.delivered)
    (hin : InTime L.sent L.delivered k)
    (hroom : (outstanding L.sent (insert k L.delivered)).card ≤ maxSkippedMessageKeys) :
    ∃ result r' v₁ passed' ahead', (decrypt c w clock p.envelope).run L.receiver = .ok result r' ∧
      result.plaintext = p.message.payload ∧ passed' ++ ahead' = passed ++ ahead ∧
      Receiver c w r₀ v₀ passed' (insert k L.delivered) v₁ r' ∧
      Run (Carries c w r₀) v₁ ahead' v' := by
  have hlt : k < L.sent.length := by
    rw [h.length_eq]
    exact (List.getElem?_eq_some_iff.mp hp).1
  have hcan := h.canReceive hclock hexpired hlt hk
  have hfresh := h.fresh hp hk
  rcases Nat.lt_or_ge k passed.length with hpassed | hahead
  · rw [List.getElem?_append_left hpassed] at hp
    obtain ⟨result, r', hdec, hplain, hreceiver⟩ :=
      h.receiver.deliverPassed hc hcan hp hk hfresh (h.epoch_le hp hin)
    exact ⟨result, r', v, passed, ahead, hdec, hplain, rfl, hreceiver, h.run⟩
  · rw [List.getElem?_append_right hahead] at hp
    obtain ⟨seg, rest, rfl, hlen⟩ := exists_split_of_getElem? hp
    obtain rfl : k = passed.length + seg.length := by omega
    obtain ⟨v₁, hrun, hrest⟩ := h.run.exists_of_append
    have hfree := seg_free (append_assoc seg [p] rest ▸ h) hratchets
    have hroom' := (Finset.card_le_card
      (h.owed_subset rfl (h.receiver.run.append hrun))).trans hroom
    obtain ⟨result, r', hdec, hplain, hreceiver⟩ : ∃ result r',
        (decrypt c w clock p.envelope).run L.receiver = .ok result r' ∧
          result.plaintext = p.message.payload ∧ Receiver c w r₀ v₀ (passed ++ (seg ++ [p]))
            (insert (passed.length + seg.length) L.delivered) v₁ r' := by
      cases hheader : p.envelope.hasRatchetHeader with
      | true => exact h.receiver.deliverRatchet hc hcan hrun hfree hheader hfresh hroom'
      | false =>
        refine h.receiver.deliverMessage hc hcan hrun (fun q hq => ?_) hfresh hroom'
        rcases mem_append.mp hq with hq | hq
        · exact hfree q hq
        · rw [mem_singleton.mp hq]
          exact hheader
    exact ⟨result, r', v₁, _, rest, hdec, hplain, by rw [append_assoc], hreceiver, hrest⟩

theorem delivered_cons (L : OneWay) (r : SessionInner) (k : ℕ) (outcome : Option Bytes) :
    delivered { L with receiver := r, log := (k, outcome) :: L.log } = insert k L.delivered :=
  toFinset_cons

theorem outcomes_cons (L : OneWay) (r : SessionInner) (k : ℕ) (outcome : Option Bytes) (j : ℕ) :
    OneWay.outcomes { L with receiver := r, log := (k, outcome) :: L.log } j =
      if k = j then outcome :: L.outcomes j else L.outcomes j := by
  simp only [OneWay.outcomes, filter_cons, decide_eq_true_eq]
  split_ifs <;> rfl

/-- A delivery is entered in the log: the first one of a packet with its message, the later ones
as failures. -/
theorem Underway.logged (h : Underway c w r₀ L v₀ v v' passed ahead) {p : Packet}
    {r' : SessionInner} {outcome : Option Bytes} {v₁ : View} {passed' ahead' : List Parcel}
    (hp : L.sent[k]? = some p) (hline : passed' ++ ahead' = passed ++ ahead)
    (hreceiver : Receiver c w r₀ v₀ passed' (insert k L.delivered) v₁ r')
    (hrun : Run (Carries c w r₀) v₁ ahead' v')
    (houtcome : (k ∉ L.delivered ∧ outcome = some p.message.payload) ∨
      (k ∈ L.delivered ∧ outcome = none)) :
    Underway c w r₀ { L with receiver := r', log := (k, outcome) :: L.log } v₀ v₁ v' passed' ahead'
    where
  packets := hline ▸ h.packets
  receiver := delivered_cons L r' k outcome ▸ hreceiver
  run := hrun
  party := h.party
  sendsAt := h.sendsAt
  rootKey := h.rootKey
  keys := h.keys
  sameSession := h.sameSession
  sameMax := h.sameMax
  count := h.count
  count_le := h.count_le
  drawn := h.drawn
  spent := hline ▸ h.spent
  nodup := hline ▸ h.nodup
  outcomes := by
    intro j q hq hj
    change L.sent[j]? = some q at hq
    by_cases hjk : j = k
    · subst hjk
      obtain rfl : p = q := Option.some.inj (hp.symm.trans hq)
      rw [outcomes_cons, if_pos rfl]
      rcases houtcome with ⟨hnew, rfl⟩ | ⟨hold, rfl⟩
      · have hnil : L.outcomes j = [] := by
          rw [OneWay.outcomes, map_eq_nil_iff, filter_eq_nil_iff]
          rintro d hd hdj
          rw [decide_eq_true_eq] at hdj
          exact hnew (mem_toFinset.mpr (mem_map.mpr ⟨d, hd, hdj⟩))
        exact ⟨0, by rw [hnil]; rfl⟩
      · obtain ⟨n, hn⟩ := h.outcomes j p hq hold
        exact ⟨n + 1, by rw [hn]; rfl⟩
    · rw [outcomes_cons, if_neg (Ne.symm hjk)]
      rw [delivered_cons] at hj
      exact h.outcomes j q hq ((Finset.mem_insert.mp hj).resolve_left hjk)

/-- Every admissible event keeps the packets underway. -/
theorem Underway.exec (hc : c.Correct) (h : Underway c w r₀ L v₀ v v' passed ahead) {e : Event}
    (hadm : Admissible L e) :
    ∃ v v' passed ahead, Underway c w r₀ (L.exec c w e) v₀ v v' passed ahead := by
  cases e with
  | send clock rnd m =>
    rw [OneWay.exec]
    split
    · next envelope s hrun =>
      obtain ⟨hsent⟩ := encrypt_eq_ok hrun
      obtain ⟨p, v'', hnew⟩ := h.send hsent hadm
      exact ⟨_, _, _, _, hnew⟩
    · next err s hrun =>
      obtain rfl := encrypt_eq_error h.sendsAt.keys.handleSizes hrun
      exact ⟨_, _, _, _, h⟩
  | deliver k clock =>
    rw [OneWay.exec]
    split
    · exact ⟨_, _, _, _, h⟩
    · next packet hpacket =>
      obtain ⟨p, hp, rfl⟩ : ∃ p, (passed ++ ahead)[k]? = some p ∧ p.toPacket = packet := by
        rw [← h.packets, List.getElem?_map, Option.map_eq_some_iff] at hpacket
        exact hpacket
      by_cases hk : k ∈ L.delivered
      · have hp' : passed[k]? = some p := by
          rwa [List.getElem?_append_left (h.receiver.delivered_lt k hk)] at hp
        obtain ⟨err, hdec⟩ := h.receiver.deliverAgain hc hp' hk clock
        rw [hdec]
        refine ⟨_, _, _, _, h.logged hpacket rfl ?_ h.run (.inr ⟨hk, rfl⟩)⟩
        rw [Finset.insert_eq_of_mem hk]
        exact h.receiver
      · obtain ⟨⟨⟨now, hclock⟩, hexpired⟩, hratchets, hin, hroom⟩ := hadm.resolve_left hk
        obtain ⟨result, r', v₁, passed', ahead', hdec, hplain, hline, hreceiver, hrun⟩ :=
          h.deliverFirst hc hp hk hclock hexpired hratchets hin hroom
        rw [hdec]
        exact ⟨_, _, _, _, h.logged hpacket hline hreceiver hrun
          (.inl ⟨hk, congrArg some hplain⟩)⟩

end Underway

/-- At the start nothing was sent, and the two sessions are at the same view. -/
theorem Underway.start {c : Crypto} {w : Wire} (hc : c.Correct) {sender receiver : SessionInner}
    (h : HonestPair c sender receiver) :
    ∃ v, Underway c w receiver (OneWay.start sender receiver) v v v [] [] := by
  obtain ⟨args, args', secret, hmirror, hs, hr⟩ := h
  obtain ⟨dh, hs⟩ := establish_eq_ok hs
  obtain ⟨dh', hr⟩ := establish_eq_ok hr
  obtain ⟨v, hsync, -, -⟩ := hmirror.inSync hc hs hr
  obtain ⟨u, hback, -, -⟩ := hmirror.symm.inSync hc hr hs
  have hskipped : receiver.skippedMessageKeys = ∅ := hr.skippedMessageKeys
  have hcached : receiver.cachedMetadataKeys = ∅ := hr.cachedMetadataKeys
  refine ⟨v, {
    packets := rfl
    receiver := {
      run := .nil v
      sendSide := .refl receiver
      recvAt := hsync.recvAt
      delivered_lt := fun j hj => absurd hj (Finset.notMem_empty j)
      last := fun hne => absurd rfl hne
      ratchets := fun j p hp => by cases hp
      skipped := ?_
      metadata := fun p hp => by cases hp
      cached_lt := ?_
      seen := ?_
      total := hr.totalMessagesReceived }
    run := .nil v
    party := hr.party
    sendsAt := hsync.sendsAt
    rootKey := hsync.rootKey
    keys := ?_
    sameSession := hmirror.sameSession hs hr
    sameMax := hs.maxMessagesPerChain.trans
      (hmirror.maxMessagesPerChain.symm.trans hr.maxMessagesPerChain.symm)
    count := hs.totalMessagesSent
    count_le := Nat.zero_le _
    drawn := drawnFrom_drawnPrefixes sender
    spent := fun p hp => by cases hp
    nodup := nodup_nil
    outcomes := fun k p hp => by cases hp }⟩
  · intro e i key
    change receiver.skippedMessageKeys.get? _ = _ ↔ _
    rw [hskipped, OrdMap.get?_empty]
    refine ⟨fun hkey => (by cases hkey), ?_⟩
    rintro ⟨j, -, p, hp, -⟩
    cases hp
  · intro e he
    change e ∈ receiver.cachedMetadataKeys.keys at he
    rw [hcached] at he
    exact absurd he (Finset.notMem_empty e)
  · intro n hn
    change n ∈ receiver.seenPayloadNonces at hn
    rw [hr.seenPayloadNonces] at hn
    exact absurd hn (Finset.notMem_empty n)
  · change KeysMatch c sender.state.dhRemotePublic sender.state.kyberRemotePublic receiver
    rw [hback.recvAt.dhRemotePublic, hback.recvAt.kyberRemotePublic]
    exact hback.sendsAt.keys

/-- In every run, a packet that was delivered was decrypted to its message the first time, and
never again. -/
theorem decrypts_once {c : Crypto} {w : Wire} (hc : c.Correct) {L : OneWay} (h : Reaches c w L)
    {k : ℕ} {p : Packet} (hp : L.sent[k]? = some p) (hk : k ∈ L.delivered) :
    ∃ n, L.outcomes k = List.replicate n none ++ [some p.message.payload] := by
  obtain ⟨r₀, v₀, v, v', passed, ahead, hunderway⟩ :
      ∃ r₀ v₀ v v' passed ahead, Underway c w r₀ L v₀ v v' passed ahead := by
    clear hp hk
    induction h with
    | start hpair =>
      obtain ⟨v, hstart⟩ := Underway.start hc hpair
      exact ⟨_, v, v, v, [], [], hstart⟩
    | step _ hadm ih =>
      obtain ⟨r₀, v₀, v, v', passed, ahead, hunderway⟩ := ih
      exact ⟨r₀, v₀, hunderway.exec hc hadm⟩
  exact hunderway.outcomes k p hp hk

/-! ## A run across a ratchet -/

/-- A handshake that allows two messages in a chain. -/
def shortArgs (initiator : Bool) : BuildArgs :=
  { sampleArgs initiator with maxMessagesPerChain := 2 }

theorem shortArgs_mirrored : Mirrored .transparent (shortArgs true) (shortArgs false) :=
  { sampleArgs_mirrored with maxMessagesPerChain := rfl }

theorem establish_shortArgs_isSome (initiator : Bool) :
    (establish .transparent (shortArgs initiator) sampleKyberSecret).toOption.isSome =
      true := by
  cases initiator <;> decide +kernel

/-- The session of one side. -/
@[irreducible] def shortSession (initiator : Bool) : SessionInner :=
  (establish Crypto.transparent (shortArgs initiator) sampleKyberSecret).toOption.get
    (establish_shortArgs_isSome initiator)

theorem establish_shortArgs (initiator : Bool) :
    establish .transparent (shortArgs initiator) sampleKyberSecret =
      .ok (shortSession initiator) := by
  unfold shortSession
  exact eq_ok_get_toOption (establish_shortArgs_isSome initiator)

/-- Four messages, the third of which turns the ratchet.  The ratchet overtakes both messages
before it, and the last message and the ratchet arrive again. -/
def overtaking : List Event :=
  [.send fixedClock (sampleEntropy 51) sampleMessage, .send fixedClock (sampleEntropy 52) sampleMessage,
    .send fixedClock (sampleEntropy 53) sampleMessage, .send fixedClock (sampleEntropy 54) sampleMessage,
    .deliver 2 fixedClock, .deliver 1 fixedClock, .deliver 3 fixedClock, .deliver 3 fixedClock,
    .deliver 0 fixedClock, .deliver 2 fixedClock]

/-- What the run leads to. -/
def overtaken : OneWay :=
  overtaking.foldl (exec Crypto.transparent Wire.plain)
    (start (shortSession true) (shortSession false))

theorem decrypts_once_overtaken :
    overtaken.delivered = {0, 1, 2, 3} ∧ isRatchetAt overtaken.sent 2 = true ∧
      ∀ k ∈ overtaken.delivered, ∃ n,
        overtaken.outcomes k = List.replicate n none ++ [some sampleMessage.payload] := by
  have heval : Admits (exec .transparent Wire.plain) Admissible
        (start (shortSession true) (shortSession false)) overtaking ∧
      overtaken.delivered = {0, 1, 2, 3} ∧ isRatchetAt overtaken.sent 2 = true ∧
      overtaken.sent.map Packet.message = List.replicate 4 sampleMessage := by
    decide +kernel
  obtain ⟨hadmits, hdelivered, hratchet, hsent⟩ := heval
  refine ⟨hdelivered, hratchet, fun k hk ↦ ?_⟩
  have hreaches : Reaches .transparent Wire.plain overtaken :=
    hadmits.foldl (fun _ _ h hok ↦ .step h hok) (.start ⟨shortArgs true, shortArgs false,
      sampleKyberSecret, shortArgs_mirrored, establish_shortArgs true, establish_shortArgs false⟩)
  have hlt : k < 4 := by
    rw [hdelivered] at hk
    revert k
    decide
  obtain ⟨p, hp, hmessage⟩ : ∃ p, overtaken.sent[k]? = some p ∧ p.message = sampleMessage := by
    rw [← Option.map_eq_some_iff, ← List.getElem?_map, hsent, List.getElem?_replicate, if_pos hlt]
  rw [← hmessage]
  exact decrypts_once Crypto.transparent_correct hreaches hp hk

end OneWay

end AuraProtocol.Session
