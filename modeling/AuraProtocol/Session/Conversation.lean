import AuraProtocol.Session.Lifecycle
import AuraProtocol.Session.Pair

/-!
# Conversations

The two sessions of a handshake, each with a queue of the packets it sent that
are still on their way.  Both directions are lossless and keep their order;
otherwise the parties send and receive as they like.

Each direction is a run of parcels from the receiver's view to the sender's
(`Channel`).  The two directions share one root key, and this is where they can
get into each other's way: a party that turns the ratchet while a ratchet of its
peer is on the way replaces the root key and the key pair that the peer's ratchet
builds on.  As long as nobody does that, every packet decrypts to its message
(`conversation_delivers`); if both parties turn the ratchet at the same time,
neither ratchet can be received any more (`exists_crossing_ratchets`).
-/

namespace AuraProtocol.Session

open Fallible Function List

variable {r' s' : SessionInner} {clock : Clock} {rnd : Entropy} {m : Message}
  {envelope : SecureEnvelope} {back' rest : List Packet}

/-! ## Worlds -/

/-- Two parties, by their role in the handshake, with the packets on their way. -/
structure World where
  party : Bool → SessionInner
  /-- The packets a party sent that are not delivered yet, oldest first. -/
  inFlight : Bool → List Packet
  /-- The nonce prefixes drawn by the calls of a party that returned, and its first one. -/
  prefixes : Bool → List Bytes
  /-- The packets delivered so far with the plaintext that `decrypt` returned, if it did. -/
  delivered : List (Packet × Option Bytes)

/-- What can happen in a conversation. -/
inductive Event
  | send (sender : Bool) (clock : Clock) (rnd : Entropy) (m : Message)
  /-- The oldest packet on its way to a party is delivered. -/
  | deliver (receiver : Bool) (clock : Clock)
  | setSessionTtl (party : Bool) (ttlSeconds : Option ℕ)

/-- The effect of an event. -/
def World.exec (c : Crypto) (w : Wire) (W : World) : Event → World
  | .send b clock rnd m =>
    match (encrypt c w clock rnd m).run (W.party b) with
    | .ok envelope s =>
      { W with
        party := update W.party b s
        inFlight := update W.inFlight b
          (W.inFlight b ++ [{ envelope := envelope, message := m }])
        prefixes := update W.prefixes b (rnd.noncePrefix :: W.prefixes b) }
    | .error _ s => { W with party := update W.party b s }
  | .deliver b clock =>
    match W.inFlight (!b) with
    | [] => W
    | p :: rest =>
      let inFlight := update W.inFlight (!b) rest
      match (decrypt c w clock p.envelope).run (W.party b) with
      | .ok result s =>
        { W with
          party := update W.party b s
          inFlight := inFlight
          delivered := (p, some result.plaintext) :: W.delivered }
      | .error _ s =>
        { W with
          party := update W.party b s
          inFlight := inFlight
          delivered := (p, none) :: W.delivered }
  | .setSessionTtl b ttl =>
    { W with
      party := update W.party b
        (endState ((Session.setSessionTtl ttl).run (W.party b))) }

/-- The prefix a session starts with. -/
def drawnPrefixes (s : SessionInner) : List Bytes :=
  (s.state.nonceGenerator.map NonceState.noncePrefix).toList

theorem drawnFrom_drawnPrefixes (s : SessionInner) : DrawnFrom s (drawnPrefixes s) := by
  intro ns hns
  rw [drawnPrefixes, hns]
  exact mem_singleton_self _

/-- The two sessions of a handshake, before anything was sent. -/
def World.start (initiator responder : SessionInner) : World where
  party b := if b then initiator else responder
  inFlight _ := []
  prefixes b := drawnPrefixes (if b then initiator else responder)
  delivered := []

/-- Nonce prefixes do not repeat, and nothing is delivered to a session that has expired or whose
clock fails. -/
def Admissible (W : World) : Event → Prop
  | .send b _ rnd _ => rnd.noncePrefix ∉ W.prefixes b
  | .deliver b clock => (∃ now, clock.activity = .ok now) ∧
      checkInnerExpired (W.party b).state clock.expiry = .ok false
  | .setSessionTtl _ _ => True

/-- No packet of a queue carries a ratchet. -/
def RatchetFree (queue : List Packet) : Prop := ∀ p ∈ queue, p.envelope.hasRatchetHeader = false

/-- A party does not turn the ratchet while a ratchet of its peer is on the way to it. -/
def RatchetsApart (W : World) : Event → Prop
  | .send b _ _ _ =>
    sendRatchetRotationNeeded (W.party b) = .ok true → RatchetFree (W.inFlight !b)
  | _ => True

instance (clock : Clock) : Decidable (∃ now, clock.activity = .ok now) :=
  match clock.activity with
  | .ok now => isTrue ⟨now, rfl⟩
  | .error _ => isFalse fun h => (nomatch h)

instance (W : World) : (e : Event) → Decidable (Admissible W e)
  | .send b _ rnd _ => inferInstanceAs (Decidable (rnd.noncePrefix ∉ W.prefixes b))
  | .deliver b clock =>
    inferInstanceAs (Decidable (_ ∧ checkInnerExpired (W.party b).state clock.expiry = .ok false))
  | .setSessionTtl _ _ => isTrue trivial

instance (queue : List Packet) : Decidable (RatchetFree queue) :=
  inferInstanceAs (Decidable (∀ p ∈ queue, p.envelope.hasRatchetHeader = false))

instance (W : World) : (e : Event) → Decidable (RatchetsApart W e)
  | .send b _ _ _ => inferInstanceAs (Decidable (sendRatchetRotationNeeded (W.party b) = .ok true →
      RatchetFree (W.inFlight !b)))
  | .deliver _ _ => isTrue trivial
  | .setSessionTtl _ _ => isTrue trivial

/-- The worlds that conversations lead to, if a policy admits each event. -/
inductive Conversation (c : Crypto) (w : Wire) (policy : World → Event → Prop) : World → Prop
  | start {initiator responder : SessionInner} : HonestPair c initiator responder →
      Conversation c w policy (World.start initiator responder)
  | step {W : World} {e : Event} : Conversation c w policy W → Admissible W e → policy W e →
      Conversation c w policy (W.exec c w e)

variable {W : World}

/-- Events that are admitted one after the other lead on. -/
theorem Conversation.foldl {c : Crypto} {w : Wire} {policy : World → Event → Prop}
    (h : Conversation c w policy W) {es : List Event}
    (hes : Admits (World.exec c w) (fun W e => Admissible W e ∧ policy W e) W es) :
    Conversation c w policy (es.foldl (World.exec c w) W) :=
  hes.foldl (fun _ _ h hok => .step h hok.1 hok.2) h

/-! ## Channels -/

/-- What a party needs in order to go on. -/
structure Party (s : SessionInner) : Prop where
  alive : s.state.version ≠ 0
  maxMessagesPerChain : s.state.maxMessagesPerChain ≠ 0 ∧
    s.state.maxMessagesPerChain ≤ AuraProtocol.maxMessagesPerChain
  sent_le : s.state.totalMessagesSent ≤ u64Max

theorem Party.of_sendSide {s : SessionInner} (h : Party s) (hside : SendSide s s') : Party s' where
  alive := hside.version ▸ h.alive
  maxMessagesPerChain := hside.maxMessagesPerChain ▸ h.maxMessagesPerChain
  sent_le := hside.totalMessagesSent ▸ h.sent_le

/-- One direction: the packets on their way from `s` to `r` lead from the receiver's view `v₀` to
the sender's view `v`. -/
structure Channel (c : Crypto) (w : Wire) (s r : SessionInner) (queue back : List Packet)
    (prefixes : List Bytes) (parcels : List Parcel) (v₀ v : View) : Prop where
  packets : parcels.map Parcel.toPacket = queue
  run : Run (Carries c w r) v₀ parcels v
  recvAt : RecvAt r v₀
  sendsAt : SendsAt c s v
  /-- The sender's root key is the one of its view, unless a ratchet is on the way to it. -/
  root : RatchetFree back → s.state.rootKey = v.rootKey
  count : s.state.totalMessagesSent = r.state.totalMessagesReceived + queue.length
  drawn : DrawnFrom s prefixes
  spent : ∀ p ∈ parcels, Spent s prefixes p.nonce
  spent_seen : ∀ n ∈ r.seenPayloadNonces, Spent s prefixes n
  unseen : ∀ p ∈ parcels, p.nonce ∉ r.seenPayloadNonces
  nodup : (parcels.map Parcel.nonce).Nodup

/-- One direction, with some parcels and views. -/
def Linked (c : Crypto) (w : Wire) (s r : SessionInner) (queue back : List Packet)
    (prefixes : List Bytes) : Prop :=
  ∃ parcels v₀ v, Channel c w s r queue back prefixes parcels v₀ v

section Channel

variable {c : Crypto} {w : Wire} {s r : SessionInner} {queue back : List Packet}
  {prefixes : List Bytes} {parcels : List Parcel} {v₀ v : View}

section

variable (h : Channel c w s r queue back prefixes parcels v₀ v) (hfree : RatchetFree queue)
include h hfree

theorem Channel.header_eq_false : ∀ p ∈ parcels, p.envelope.hasRatchetHeader = false := by
  intro p hp
  refine hfree p.toPacket ?_
  rw [← h.packets]
  exact mem_map_of_mem hp

/-- Without a ratchet on the way, receiver and sender are at the same ratchet keys. -/
theorem Channel.sameRatchet : v₀.SameRatchet v := by
  refine h.run.invariant (P := fun u => v₀.SameRatchet u) (fun p hp u u' hstep hu => ?_)
    ⟨rfl, rfl, rfl⟩
  have hsame := hstep.sameRatchet (h.header_eq_false hfree p hp)
  exact ⟨hsame.rootKey.trans hu.rootKey, hsame.dhPublic.trans hu.dhPublic,
    hsame.kyberPublic.trans hu.kyberPublic⟩

/-- Without a ratchet on the way, the receiver knows the sender's key pairs. -/
theorem Channel.keysMatch : KeysMatch c r.state.dhRemotePublic r.state.kyberRemotePublic s := by
  have hsame := h.sameRatchet hfree
  rw [h.recvAt.dhRemotePublic, h.recvAt.kyberRemotePublic, ← hsame.dhPublic, ← hsame.kyberPublic]
  exact h.sendsAt.keys

end

/-- A nonce stays spent while the sending side does not change. -/
theorem Spent.of_sendSide {s : SessionInner} {n : Bytes} (h : Spent s prefixes n)
    (hside : SendSide s s') : Spent s' prefixes n := by
  obtain ⟨p, ctr, i, hn, hp, hlen, hi, hpast⟩ := h
  refine ⟨p, ctr, i, hn, hp, hlen, hi, fun ns hns heq => ?_⟩
  rw [sendIndex, hside.sendChain]
  exact hpast ns (hside.nonceGenerator ▸ hns) heq

/-- The sender of a direction may change in everything but its sending side and, if it stays the
root key of its view, its root key. -/
theorem Channel.of_sendSide (h : Channel c w s r queue back prefixes parcels v₀ v)
    (hside : SendSide s s') (hroot : RatchetFree back' → s'.state.rootKey = v.rootKey) :
    Channel c w s' r queue back' prefixes parcels v₀ v where
  packets := h.packets
  run := h.run
  recvAt := h.recvAt
  sendsAt := h.sendsAt.of_sendSide hside
  root := hroot
  count := hside.totalMessagesSent.trans h.count
  drawn := fun ns hns => h.drawn ns (hside.nonceGenerator ▸ hns)
  spent := fun p hp => (h.spent p hp).of_sendSide hside
  spent_seen := fun n hn => (h.spent_seen n hn).of_sendSide hside
  unseen := h.unseen
  nodup := h.nodup

theorem Sent.totalMessagesSent (h : Sent c w clock rnd m s envelope s') :
    s'.state.totalMessagesSent = s.state.totalMessagesSent + 1 ∧
      s'.state.totalMessagesSent ≤ u64Max := by
  have hcheck := h.check
  simp only [checkEncrypt, except_bind_eq_ok, orError_eq_ok, checkedAdd_eq_some] at hcheck
  obtain ⟨_, -, _, -, _, -, _, -, total, ⟨hle, rfl⟩, _, -, _, -, hcheck⟩ := hcheck
  obtain ⟨-, htotal⟩ := Prod.mk.inj (Except.ok.inj hcheck)
  have hfinal : s'.state.totalMessagesSent = h.totalSent :=
    congrArg (fun s : SessionInner => s.state.totalMessagesSent) h.final_eq
  exact ⟨hfinal.trans htotal.symm, (hfinal.trans htotal.symm).trans_le hle⟩

/-- The sender of a direction sends another packet. -/
theorem Channel.sent (h : Channel c w s r queue back prefixes parcels v₀ v)
    (hsent : Sent c w clock rnd m s envelope s') (hsame : SameSession s.state r.state)
    (hmax : s.state.maxMessagesPerChain = r.state.maxMessagesPerChain)
    (hturn : sendRatchetRotationNeeded s = .ok true → RatchetFree back ∧
      KeysMatch c s.state.dhRemotePublic s.state.kyberRemotePublic r)
    (hfresh : rnd.noncePrefix ∉ prefixes) :
    Linked c w s' r (queue ++ [{ envelope := envelope, message := m }]) back
      (rnd.noncePrefix :: prefixes) := by
  obtain ⟨p, v', hpacket, hnonce, hcarries, hat', hkeys⟩ :=
    hsent.carries h.sendsAt hsame hmax fun hneeded =>
      ⟨h.root (hturn hneeded).1, (hturn hneeded).2⟩
  obtain ⟨hdrawn, hspent, hold⟩ := hsent.spent h.drawn hfresh
  have henvelope : p.envelope = envelope := congrArg Packet.envelope hpacket
  rw [← hnonce] at hspent hold
  refine ⟨parcels ++ [p], v₀, v', {
    packets := by rw [map_append, h.packets, ← hpacket]; rfl
    run := h.run.snoc hcarries
    recvAt := h.recvAt
    sendsAt := hat'
    root := ?_
    count := ?_
    drawn := hdrawn
    spent := ?_
    spent_seen := fun n hn => (hold n (h.spent_seen n hn)).1
    unseen := ?_
    nodup := ?_ }⟩
  · intro hfree
    rcases hkeys with ⟨hheader, hsameKeys⟩ | ⟨-, -, hroot⟩
    · have hsameRatchet := hcarries.sameRatchet (henvelope ▸ hheader)
      exact hsameKeys.rootKey.trans ((h.root hfree).trans hsameRatchet.rootKey.symm)
    · exact hroot
  · rw [hsent.totalMessagesSent.1, h.count, length_append]
    rfl
  · intro p hp
    rcases mem_append.mp hp with hp | hp
    · exact (hold _ (h.spent p hp)).1
    · rw [mem_singleton.mp hp]
      exact hspent
  · intro p hp hseen
    rcases mem_append.mp hp with hp | hp
    · exact h.unseen p hp hseen
    · rw [mem_singleton.mp hp] at hseen
      exact (hold _ (h.spent_seen _ hseen)).2 rfl
  · rw [map_append, nodup_append]
    refine ⟨h.nodup, nodup_singleton _, fun n hn n' hn' => ?_⟩
    obtain ⟨p, hp, rfl⟩ := mem_map.mp hn
    rw [mem_singleton.mp hn']
    exact (hold _ (h.spent p hp)).2

/-- The receiver of a direction changes in nothing but its sending side and its ratchet keys. -/
theorem Channel.of_recvSide {v₀' v' : View} (h : Channel c w s r queue back prefixes parcels v₀ v)
    (hside : RecvSide r r') (hrun : Run (Carries c w r') v₀' parcels v') (hrecv : RecvAt r' v₀')
    (hsend : SendsAt c s v') (hroot : RatchetFree back' → s.state.rootKey = v'.rootKey) :
    Channel c w s r' queue back' prefixes parcels v₀' v' where
  packets := h.packets
  run := hrun
  recvAt := hrecv
  sendsAt := hsend
  root := hroot
  count := by
    rw [hside.totalMessagesReceived]
    exact h.count
  drawn := h.drawn
  spent := h.spent
  spent_seen := hside.seenPayloadNonces ▸ h.spent_seen
  unseen := hside.seenPayloadNonces ▸ h.unseen
  nodup := h.nodup

theorem RecvAt.of_recvSide {r : SessionInner} {v : View} (h : RecvAt r v) (hside : RecvSide r r')
    {rootKey : Bytes} (hlen : rootKey.length = rootKeyBytes) (hroot : r'.state.rootKey = rootKey) :
    RecvAt r' (v.withRoot rootKey hlen) where
  epoch := hside.recvRatchetEpoch.trans h.epoch
  chain := hside.recvChain ▸ h.chain
  metadataKey := hside.metadataKey.trans h.metadataKey
  rootKey := hroot
  dhRemotePublic := hside.dhRemotePublic.trans h.dhRemotePublic
  kyberRemotePublic := hside.kyberRemotePublic.trans h.kyberRemotePublic

/-- The receiver of a direction sends a packet the other way.  If that turns the ratchet, no
ratchet may be on the way to it. -/
theorem Channel.receiverSent (h : Channel c w s r queue back prefixes parcels v₀ v) (v' : View)
    (hsent : Sent c w clock rnd m r envelope r')
    (hkeys : (envelope.hasRatchetHeader = false ∧ SameKeys r r') ∨
      (envelope.hasRatchetHeader = true ∧ RatchetFree queue ∧ r'.state.rootKey = v'.rootKey)) :
    Linked c w s r' queue (back ++ [{ envelope := envelope, message := m }]) prefixes := by
  have hside := hsent.recvSide
  rcases hkeys with ⟨-, hsameKeys⟩ | ⟨hheader, hfree, hroot⟩
  · refine ⟨parcels, v₀, v, h.of_recvSide hside (h.run.mono fun p _ u u' hstep => ?_)
      (h.recvAt.of_recvSide hside v₀.length_rootKey (hsameKeys.rootKey.trans h.recvAt.rootKey))
      h.sendsAt fun hfree => h.root fun p hp => hfree p (mem_append_left _ hp)⟩
    exact hstep.congr hside.sameSession hside.maxMessagesPerChain fun _ =>
      ⟨hsameKeys.dhPrivateHandle, hsameKeys.kyberSecretHandle⟩
  · -- the packets on the way to the receiver do not depend on the keys it replaced
    have hrun : Run (Carries c w r') (v₀.withRoot v'.rootKey v'.length_rootKey) parcels
        (v.withRoot v'.rootKey v'.length_rootKey) := by
      refine h.run.map (fun u => u.withRoot v'.rootKey v'.length_rootKey) fun p hp u u' hstep => ?_
      have hp' := h.header_eq_false hfree p hp
      refine (hstep.withRoot hp' _ _).congr hside.sameSession hside.maxMessagesPerChain fun htrue => ?_
      cases hp'.symm.trans htrue
    refine ⟨parcels, _, _, h.of_recvSide hside hrun (h.recvAt.of_recvSide hside _ hroot)
      ⟨h.sendsAt.epoch, h.sendsAt.chain, h.sendsAt.metadataKey, h.sendsAt.keys,
        h.sendsAt.index_le⟩ fun hback => ?_⟩
    have hlast := hback _ (mem_append_right _ (mem_singleton_self _))
    cases hlast.symm.trans hheader

/-- The oldest packet of a direction decrypts to its message, and the rest is still on its way. -/
theorem Channel.deliver (hc : c.Correct) {p : Packet}
    (h : Channel c w s r (p :: rest) back prefixes parcels v₀ v) (hs : Party s) (hr : Party r)
    {now : ℕ} (hclock : clock.activity = .ok now)
    (hexpired : checkInnerExpired r.state clock.expiry = .ok false) :
    ∃ result r' parcels' v₁, (decrypt c w clock p.envelope).run r = .ok result r' ∧
      result.plaintext = p.message.payload ∧ SendSide r r' ∧
      Channel c w s r' rest back prefixes parcels' v₁ v ∧
      (p.envelope.hasRatchetHeader = false → r'.state.rootKey = r.state.rootKey) := by
  obtain ⟨q, qs, hqs, hq, hrest⟩ := map_eq_cons_iff.mp h.packets
  subst hqs
  subst hq
  have hrun := h.run
  have hnodup := h.nodup
  rw [map_cons, nodup_cons] at hnodup
  cases hrun with
  | @cons _ v₁ _ _ _ hstep hrun =>
    have hlen : r.state.totalMessagesReceived + 1 ≤ u64Max := by
      have hcount := h.count
      rw [length_cons] at hcount
      have := hs.sent_le
      omega
    have hcan : CanReceive clock r now := ⟨hr.alive, hexpired, hclock, hlen,
      h.recvAt.metadataKey ▸ v₀.length_metadataKey, hr.maxMessagesPerChain⟩
    obtain ⟨result, r', hdec, hplain, hat', hseen, htotal⟩ :=
      hstep.decrypt hc hcan h.recvAt (h.unseen q mem_cons_self)
    obtain ⟨hreceived⟩ := decrypt_eq_ok.mp hdec
    have hside := hreceived.sendSide
    refine ⟨result, r', qs, v₁, hdec, hplain, hside, {
      packets := hrest
      run := hrun.mono fun p _ u u' hstep => hstep.congr hside.sameSession
        hside.maxMessagesPerChain fun _ => ⟨hside.dhPrivateHandle, hside.kyberSecretHandle⟩
      recvAt := hat'
      sendsAt := h.sendsAt
      root := h.root
      count := ?_
      drawn := h.drawn
      spent := fun p hp => h.spent p (mem_cons_of_mem _ hp)
      spent_seen := fun n hn => ?_
      unseen := fun p hp hpseen => ?_
      nodup := hnodup.2 }, fun hheader => ?_⟩
    · rw [h.count, htotal, length_cons]
      omega
    · rcases Finset.mem_insert.mp (hseen hn) with rfl | hn
      · exact h.spent q mem_cons_self
      · exact h.spent_seen n hn
    · rcases Finset.mem_insert.mp (hseen hpseen) with heq | hold
      · exact hnodup.1 (heq ▸ mem_map_of_mem hp)
      · exact h.unseen p (mem_cons_of_mem _ hp) hold
    · rw [hat'.rootKey, (hstep.sameRatchet hheader).rootKey, h.recvAt.rootKey]

end Channel

/-! ## Both directions -/

/-- Two parties that can talk to each other; at most one of them has turned the ratchet without
the other knowing. -/
structure Duplex (c : Crypto) (w : Wire) (a b : SessionInner) (fromA fromB : List Packet)
    (prefixesA prefixesB : List Bytes) : Prop where
  party : Party a ∧ Party b
  sameSession : SameSession a.state b.state
  sameMax : a.state.maxMessagesPerChain = b.state.maxMessagesPerChain
  forth : Linked c w a b fromA fromB prefixesA
  back : Linked c w b a fromB fromA prefixesB
  apart : RatchetFree fromA ∨ RatchetFree fromB

section Duplex

variable {c : Crypto} {w : Wire} {a b : SessionInner} {fromA fromB : List Packet}
  {prefixesA prefixesB : List Bytes}

theorem Duplex.symm (h : Duplex c w a b fromA fromB prefixesA prefixesB) :
    Duplex c w b a fromB fromA prefixesB prefixesA where
  party := h.party.symm
  sameSession := ⟨h.sameSession.1.symm, h.sameSession.2.symm⟩
  sameMax := h.sameMax.symm
  forth := h.back
  back := h.forth
  apart := h.apart.symm

theorem KeysMatch.handleSizes {dhPublic kyberPublic : Bytes} {s : SessionInner}
    (h : KeysMatch c dhPublic kyberPublic s) : HandleSizes s := by
  obtain ⟨⟨sk, hsk, hlen, -⟩, ⟨seed, hseed, -⟩⟩ := h
  refine ⟨fun b hb => ?_, fun b hb => ?_⟩
  · rw [hsk] at hb
    cases hb
    exact hlen
  · rw [hseed] at hb
    cases hb
    exact c.length_kemKeygen_secret seed

theorem Duplex.handleSizes (h : Duplex c w a b fromA fromB prefixesA prefixesB) :
    HandleSizes a := by
  obtain ⟨_, _, _, hforth⟩ := h.forth
  exact hforth.sendsAt.keys.handleSizes

/-- A party sends, and does not turn the ratchet while one of its peer is on the way. -/
theorem Duplex.send (h : Duplex c w a b fromA fromB prefixesA prefixesB) {a' : SessionInner}
    (hsent : Sent c w clock rnd m a envelope a') (hfresh : rnd.noncePrefix ∉ prefixesA)
    (hapart : sendRatchetRotationNeeded a = .ok true → RatchetFree fromB) :
    Duplex c w a' b (fromA ++ [{ envelope := envelope, message := m }]) fromB
      (rnd.noncePrefix :: prefixesA) prefixesB := by
  obtain ⟨_, _, v, hforth⟩ := h.forth
  obtain ⟨_, _, _, hback⟩ := h.back
  have hturn : sendRatchetRotationNeeded a = .ok true → RatchetFree fromB ∧
      KeysMatch c a.state.dhRemotePublic a.state.kyberRemotePublic b :=
    fun hneeded => ⟨hapart hneeded, hback.keysMatch (hapart hneeded)⟩
  obtain ⟨_, v', -, -, -, -, hkeys⟩ := hsent.carries hforth.sendsAt h.sameSession h.sameMax fun hneeded =>
    ⟨hforth.root (hturn hneeded).1, (hturn hneeded).2⟩
  have hside := hsent.recvSide
  refine {
    party := ⟨⟨?_, ?_, hsent.totalMessagesSent.2⟩, h.party.2⟩
    sameSession := ⟨hside.sameSession.1.trans h.sameSession.1,
      hside.sameSession.2.trans h.sameSession.2⟩
    sameMax := hside.maxMessagesPerChain.trans h.sameMax
    forth := hforth.sent hsent h.sameSession h.sameMax hturn hfresh
    back := hback.receiverSent v' hsent ?_
    apart := ?_ }
  · rw [hside.version]
    exact h.party.1.alive
  · rw [hside.maxMessagesPerChain]
    exact h.party.1.maxMessagesPerChain
  · rcases hkeys with hstay | ⟨hheader, hneeded, hroot⟩
    · exact .inl hstay
    · exact .inr ⟨hheader, hapart hneeded, hroot⟩
  · rcases hkeys with ⟨hheader, -⟩ | ⟨-, hneeded, -⟩
    · refine h.apart.imp_left fun hfree p hp => ?_
      rcases mem_append.mp hp with hp | hp
      · exact hfree p hp
      · rw [mem_singleton.mp hp]
        exact hheader
    · exact .inr (hapart hneeded)

/-- The oldest packet on its way to a party decrypts to its message. -/
theorem Duplex.deliver (hc : c.Correct) {p : Packet}
    (h : Duplex c w a b fromA (p :: rest) prefixesA prefixesB) {now : ℕ}
    (hclock : clock.activity = .ok now)
    (hexpired : checkInnerExpired a.state clock.expiry = .ok false) :
    ∃ result a', (decrypt c w clock p.envelope).run a = .ok result a' ∧
      result.plaintext = p.message.payload ∧ Duplex c w a' b fromA rest prefixesA prefixesB := by
  obtain ⟨_, _, v, hforth⟩ := h.forth
  obtain ⟨_, _, u, hback⟩ := h.back
  obtain ⟨result, a', parcels', v₁, hdec, hplain, hside, hback', hroot⟩ :=
    hback.deliver hc h.party.2 h.party.1 hclock hexpired
  have hrest : RatchetFree (p :: rest) → RatchetFree rest :=
    fun hfree q hq => hfree q (mem_cons_of_mem _ hq)
  -- once the last ratchet on the way was received, both parties are at its root key
  have hroot' : RatchetFree rest → a'.state.rootKey = v.rootKey := by
    intro hfree
    cases hheader : p.envelope.hasRatchetHeader with
    | false =>
      rw [hroot hheader]
      refine hforth.root fun q hq => ?_
      rcases mem_cons.mp hq with rfl | hq
      · exact hheader
      · exact hfree q hq
    | true =>
      have hfreeA : RatchetFree fromA := by
        refine h.apart.resolve_right fun hfreeB => ?_
        cases (hfreeB p mem_cons_self).symm.trans hheader
      calc a'.state.rootKey = v₁.rootKey := hback'.recvAt.rootKey
        _ = u.rootKey := (hback'.sameRatchet hfree).rootKey.symm
        _ = b.state.rootKey := (hback.root hfreeA).symm
        _ = _ := hforth.recvAt.rootKey
        _ = v.rootKey := (hforth.sameRatchet hfreeA).rootKey.symm
  refine ⟨result, a', hdec, hplain, {
    party := ⟨h.party.1.of_sendSide hside, h.party.2⟩
    sameSession := ⟨hside.sameSession.1.trans h.sameSession.1,
      hside.sameSession.2.trans h.sameSession.2⟩
    sameMax := hside.maxMessagesPerChain.trans h.sameMax
    forth := ⟨_, _, v, hforth.of_sendSide hside hroot'⟩
    back := ⟨parcels', v₁, u, hback'⟩
    apart := h.apart.imp_right hrest }⟩

/-- Nothing that a conversation depends on changed. -/
structure Unaffected (s s' : SessionInner) : Prop where
  sendSide : SendSide s s'
  recvSide : RecvSide s s'
  rootKey : s'.state.rootKey = s.state.rootKey

instance : IsPreorder SessionInner Unaffected where
  refl s := ⟨.refl s, .refl s, rfl⟩
  trans _ _ _ h h' := ⟨h.1.trans h'.1, h.2.trans h'.2, h'.3.trans h.3⟩

theorem setSessionTtl_unaffected (ttl : Option ℕ) : Keeps Unaffected (setSessionTtl ttl) := by
  refine setter_keeps _ _ ?_
  exact fun _ => ⟨⟨rfl, ⟨rfl, rfl⟩, rfl, rfl, rfl, rfl, rfl, rfl, rfl, rfl⟩,
    ⟨rfl, ⟨rfl, rfl⟩, rfl, rfl, rfl, rfl, rfl, rfl, rfl, rfl⟩, rfl⟩

theorem Duplex.unaffected (h : Duplex c w a b fromA fromB prefixesA prefixesB) {a' : SessionInner}
    (ha : Unaffected a a') : Duplex c w a' b fromA fromB prefixesA prefixesB := by
  obtain ⟨_, _, v, hforth⟩ := h.forth
  obtain ⟨_, u₀, u, hback⟩ := h.back
  have hside := ha.sendSide
  refine {
    party := ⟨h.party.1.of_sendSide hside, h.party.2⟩
    sameSession := ⟨hside.sameSession.1.trans h.sameSession.1,
      hside.sameSession.2.trans h.sameSession.2⟩
    sameMax := hside.maxMessagesPerChain.trans h.sameMax
    forth := ⟨_, _, v, hforth.of_sendSide hside fun hfree => ha.rootKey.trans (hforth.root hfree)⟩
    back := ⟨_, u₀, u, hback.of_recvSide ha.recvSide (hback.run.mono fun p _ x y hstep => ?_)
      (hback.recvAt.of_recvSide ha.recvSide u₀.length_rootKey
        (ha.rootKey.trans hback.recvAt.rootKey)) hback.sendsAt hback.root⟩
    apart := h.apart }
  exact hstep.congr hside.sameSession hside.maxMessagesPerChain fun _ =>
    ⟨hside.dhPrivateHandle, hside.kyberSecretHandle⟩

/-- The two sessions of a handshake can talk to each other. -/
theorem Linked.start (hc : c.Correct) {args args' : BuildArgs} {secret dh dh' : Bytes}
    (h : Mirrored c args args') (ha : Established c args secret dh a)
    (hb : Established c args' secret dh' b) : Linked c w a b [] [] (drawnPrefixes a) := by
  obtain ⟨v, hsync, -, -⟩ := h.inSync hc ha hb
  refine ⟨[], v, v, {
    packets := rfl
    run := .nil v
    recvAt := hsync.recvAt
    sendsAt := hsync.sendsAt
    root := fun _ => hsync.rootKey
    count := by rw [ha.totalMessagesSent, hb.totalMessagesReceived]; rfl
    drawn := drawnFrom_drawnPrefixes a
    spent := fun p hp => by cases hp
    spent_seen := fun n hn => ?_
    unseen := fun p hp => by cases hp
    nodup := nodup_nil }⟩
  rw [hb.seenPayloadNonces] at hn
  exact absurd hn (Finset.notMem_empty n)

theorem Established.party {args : BuildArgs} {secret dh : Bytes}
    (h : Established c args secret dh a) : Party a where
  alive := by
    rw [h.version]
    decide
  maxMessagesPerChain := h.maxMessagesPerChain ▸ h.maxMessagesPerChain_valid
  sent_le := h.totalMessagesSent ▸ Nat.zero_le _

theorem Duplex.start (hc : c.Correct) (h : HonestPair c a b) :
    Duplex c w a b [] [] (drawnPrefixes a) (drawnPrefixes b) := by
  obtain ⟨args, args', secret, hmirror, ha, hb⟩ := h
  obtain ⟨dh, ha⟩ := establish_eq_ok ha
  obtain ⟨dh', hb⟩ := establish_eq_ok hb
  exact {
    party := ⟨ha.party, hb.party⟩
    sameSession := hmirror.sameSession ha hb
    sameMax := ha.maxMessagesPerChain.trans
      (hmirror.maxMessagesPerChain.symm.trans hb.maxMessagesPerChain.symm)
    forth := .start hc hmirror ha hb
    back := .start hc hmirror.symm hb ha
    apart := .inl fun p hp => by cases hp }

end Duplex

/-! ## Conversations without crossing ratchets -/

/-- The parties can talk to each other, and what was delivered was decrypted. -/
structure Talking (c : Crypto) (w : Wire) (W : World) : Prop where
  duplex : ∀ b, Duplex c w (W.party b) (W.party !b) (W.inFlight b) (W.inFlight !b) (W.prefixes b)
    (W.prefixes !b)
  delivered : ∀ d ∈ W.delivered, d.2 = some d.1.message.payload

/-- It is enough to look at the parties from one side. -/
theorem Talking.of_side {c : Crypto} {w : Wire} {b : Bool}
    (h : Duplex c w (W.party b) (W.party !b) (W.inFlight b) (W.inFlight !b) (W.prefixes b)
      (W.prefixes !b)) (hdelivered : ∀ d ∈ W.delivered, d.2 = some d.1.message.payload) :
    Talking c w W := by
  refine ⟨fun b' => ?_, hdelivered⟩
  rcases Bool.eq_or_eq_not b' b with rfl | rfl
  · exact h
  · rw [Bool.not_not]
    exact h.symm

theorem Talking.exec {c : Crypto} {w : Wire} (hc : c.Correct) (h : Talking c w W) {e : Event}
    (hadm : Admissible W e) (hapart : RatchetsApart W e) : Talking c w (W.exec c w e) := by
  cases e with
  | send b clock rnd m =>
    have hduplex := h.duplex b
    have hne : (!b) ≠ b := Bool.not_ne_self b
    rw [World.exec]
    split
    · next envelope s hrun =>
      obtain ⟨hsent⟩ := encrypt_eq_ok hrun
      refine Talking.of_side (b := b) ?_ h.delivered
      simp only [update_self, update_of_ne hne]
      exact hduplex.send hsent hadm hapart
    · next err s hrun =>
      obtain rfl := encrypt_eq_error hduplex.handleSizes hrun
      rw [update_eq_self]
      exact h
  | deliver b clock =>
    obtain ⟨⟨now, hclock⟩, hexpired⟩ := hadm
    have hduplex := h.duplex b
    have hne : (!b) ≠ b := Bool.not_ne_self b
    rw [World.exec]
    split
    · exact h
    · next p rest hqueue =>
      rw [hqueue] at hduplex
      obtain ⟨result, a', hdec, hplain, hduplex'⟩ := hduplex.deliver hc hclock hexpired
      rw [hdec]
      refine Talking.of_side (b := b) ?_ fun d hd => ?_
      · simp only [update_self, update_of_ne hne, update_of_ne hne.symm]
        exact hduplex'
      · rcases mem_cons.mp hd with rfl | hd
        · exact congrArg some hplain
        · exact h.delivered d hd
  | setSessionTtl b ttl =>
    have hne : (!b) ≠ b := Bool.not_ne_self b
    refine Talking.of_side (b := b) ?_ h.delivered
    simp only [World.exec, update_self, update_of_ne hne]
    exact (h.duplex b).unaffected (setSessionTtl_unaffected ttl _)

/-- In every conversation in which no party turns the ratchet while a ratchet of its peer is on the
way to it, every delivered packet was decrypted to its message. -/
theorem conversation_delivers {c : Crypto} {w : Wire} (hc : c.Correct) {W : World}
    (h : Conversation c w RatchetsApart W) :
    ∀ d ∈ W.delivered, d.2 = some d.1.message.payload := by
  have htalking : Talking c w W := by
    induction h with
    | start hpair => exact .of_side (b := true) (Duplex.start hc hpair) fun d hd ↦ by cases hd
    | step _ hadm hapart ih => exact ih.exec hc hadm hapart
  exact htalking.delivered

/-! ## Two conversations -/

theorem sampleArgs_mirrored :
    Mirrored .transparent (sampleArgs true) (sampleArgs false) where
  isInitiator := rfl
  rootKey := rfl
  sessionId := rfl
  metadataKey := rfl
  maxMessagesPerChain := rfl
  dhLocal := ⟨rfl, rfl⟩
  dhRemote := ⟨rfl, rfl⟩
  kyberLocal := ⟨⟨sampleKyberSeed true, rfl⟩, ⟨sampleKyberSeed false, rfl⟩⟩
  kyberRemote := ⟨rfl, rfl⟩
  identityEd25519 := ⟨rfl, rfl⟩
  identityX25519 := ⟨rfl, rfl⟩

theorem sampleSession_honestPair :
    HonestPair .transparent (sampleSession true) (sampleSession false) :=
  ⟨sampleArgs true, sampleArgs false, sampleKyberSecret, sampleArgs_mirrored,
    sampleSession?_eq true, sampleSession?_eq false⟩

/-- A party sends the short message, with randomness told apart by a byte. -/
def speaks (b : Bool) (k : UInt8) : Event := .send b fixedClock (sampleEntropy k) sampleMessage

/-- A party receives. -/
def hears (b : Bool) : Event := .deliver b fixedClock

/-- The events from the sessions of the handshake on. -/
def sampleTalk (es : List Event) : World :=
  es.foldl (World.exec Crypto.transparent Wire.plain)
    (World.start (sampleSession true) (sampleSession false))

/-- A message and its answer, which turns the ratchet. -/
def answering : List Event := [speaks true 51, hears false, speaks false 52, hears true]

theorem conversation_delivers_answering :
    (sampleTalk answering).delivered.map Prod.snd = [some [1, 2, 3], some [1, 2, 3]] ∧
      ∀ d ∈ (sampleTalk answering).delivered, d.2 = some d.1.message.payload := by
  have heval : Admits (World.exec .transparent Wire.plain)
        (fun W e ↦ Admissible W e ∧ RatchetsApart W e)
        (World.start (sampleSession true) (sampleSession false)) answering ∧
      (sampleTalk answering).delivered.map Prod.snd = [some [1, 2, 3], some [1, 2, 3]] := by
    decide +kernel
  exact ⟨heval.2, conversation_delivers Crypto.transparent_correct
    (Conversation.foldl (.start sampleSession_honestPair) heval.1)⟩

/-- Both parties send, both receive, and both answer before they receive the other's answer. -/
def crossing : List Event :=
  [speaks true 51, speaks false 52, hears false, hears true, speaks true 53, speaks false 54,
    hears false]

/-- If both parties turn the ratchet at the same time, the ratchet of the one cannot be received by
the other. -/
theorem exists_crossing_ratchets :
    ∃ W, Conversation Crypto.transparent Wire.plain (fun _ _ ↦ True) W ∧
      ¬ ∀ d ∈ W.delivered, d.2 = some d.1.message.payload := by
  have heval : Admits (World.exec .transparent Wire.plain)
        (fun W e ↦ Admissible W e ∧ True)
        (World.start (sampleSession true) (sampleSession false)) crossing ∧
      (sampleTalk crossing).delivered.map Prod.snd =
        [none, some [1, 2, 3], some [1, 2, 3]] := by
    decide +kernel
  refine ⟨sampleTalk crossing, Conversation.foldl (.start sampleSession_honestPair) heval.1, ?_⟩
  intro hall
  have hnone : none ∈ (sampleTalk crossing).delivered.map Prod.snd := by
    rw [heval.2]
    exact mem_cons_self
  obtain ⟨d, hd, hd'⟩ := mem_map.mp hnone
  rw [hall d hd] at hd'
  cases hd'

end AuraProtocol.Session
