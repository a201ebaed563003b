import StakeCubeCoin.Llmq.Commitment

namespace StakeCubeCoin.Bls

open Primitives Llmq List

/-!
# Batched verification of signatures

`CBLSBatchVerifier` of `bls/bls_batchverifier.h`.  Messages are collected with the sources
they came from and verified together; if this fails they are verified source by source and, if
wanted, one by one.  A message is stored under its id, and only the first one that was pushed
under an id is stored.  Maps are kept as lists in the order of insertion: which sources and
messages are found bad does not depend on the order.
-/

structure Message (MessageId : Type) where
  msgId : MessageId
  msgHash : Uint256
  sig : CBLSSignature
  pubKey : CBLSPublicKey
  deriving DecidableEq

/-- The verification functions.  The aggregate of some signatures is found valid only if each of
them is. -/
structure BlsCurve where
  scheme : BlsScheme
  verifyInsecure : CBLSPublicKey -> Uint256 -> CBLSSignature -> Bool
  verifyInsecureAggregated : List (CBLSPublicKey × Uint256 × CBLSSignature) -> Bool
  sound : ∀ aggregated, verifyInsecureAggregated aggregated = true ->
    ∀ signed ∈ aggregated, verifyInsecure signed.1 signed.2.1 signed.2.2 = true

/-- A curve on which the signature 1 is the only valid one is sound. -/
theorem sound_of_one : ∀ aggregated : List (CBLSPublicKey × Uint256 × CBLSSignature),
    (aggregated.all fun signed => signed.2.2 == 1) = true ->
      ∀ signed ∈ aggregated, (signed.2.2 == 1) = true :=
  fun _ verified signed member => List.all_eq_true.mp verified signed member

/-- Only one signature decodes, and it is the signature of everything. -/
def BlsCurve.sample : BlsCurve where
  scheme := { decodesPublicKey := fun _ => true, decodesSignature := fun sig => sig == 1 }
  verifyInsecure := fun _ _ sig => sig == 1
  verifyInsecureAggregated := fun aggregated => aggregated.all fun signed => signed.2.2 == 1
  sound := sound_of_one

section

variable (curve : BlsCurve) {MessageId : Type} [DecidableEq MessageId]

/-- `VerifyInsecure` of a stored message. -/
def Message.valid (msg : Message MessageId) : Bool :=
  curve.verifyInsecure msg.pubKey msg.msgHash msg.sig

/-- The messages that are aggregated: only the first one of each id. -/
def withoutDups : List MessageId -> List (Message MessageId) -> List (Message MessageId)
  | _, [] => []
  | dups, msg :: rest =>
    if msg.msgId ∈ dups then withoutDups dups rest else msg :: withoutDups (msg.msgId :: dups) rest

variable (messages : List (Message MessageId))

def verifyAggregated : Bool :=
  curve.verifyInsecureAggregated
    ((withoutDups [] messages).map fun msg => (msg.pubKey, msg.msgHash, msg.sig))

def byMessageHash : List (List (Message MessageId)) :=
  (messages.map Message.msgHash).dedup.map fun msgHash => messages.filter fun msg =>
    msg.msgHash = msgHash

def verifyBatchInsecure : Bool :=
  messages.isEmpty || verifyAggregated curve (byMessageHash messages).flatten

/-- The loop of `VerifyBatchSecure`: each round takes the last message of every hash.  The first
argument bounds the number of rounds. -/
def verifyBatchSecureLoop : Nat -> List (List (Message MessageId)) -> Bool
  | 0, _ => true
  | rounds + 1, groups =>
    if groups.isEmpty then true
    else
      verifyAggregated curve (groups.filterMap getLast?) &&
        verifyBatchSecureLoop rounds ((groups.map dropLast).filter fun group => !group.isEmpty)

def verifyBatchSecure : Bool :=
  verifyBatchSecureLoop curve messages.length (byMessageHash messages)

variable {curve}

/-- Messages with the same id are the same message. -/
def Consistent : Prop :=
  ∀ first second, first ∈ messages -> second ∈ messages -> first.msgId = second.msgId ->
    first = second

variable {messages : List (Message MessageId)}

theorem exists_mem_withoutDups {dups : List MessageId} {msg : Message MessageId} :
    msg ∈ messages -> msg.msgId ∈ dups \/
        ∃ kept ∈ withoutDups dups messages, kept ∈ messages /\ kept.msgId = msg.msgId := by
  induction messages generalizing dups msg with
  | nil =>
    intro member
    cases member
  | cons first _ ih =>
    intro member
    rw [withoutDups]
    rcases mem_cons.mp member with same | later
    · subst same
      split
      · next seen => exact .inl seen
      · exact .inr ⟨msg, (.head _), (.head _), rfl⟩
    · split
      · rcases ih later with seen | ⟨kept, listed, present, same⟩
        · exact .inl seen
        · exact .inr ⟨kept, listed, .tail _ present, same⟩
      rcases @ih (first.msgId :: dups) msg later with seen | ⟨kept, listed, present, same⟩
      · rcases mem_cons.mp seen with now | before
        · exact .inr ⟨first, (.head _), (.head _), now.symm⟩
        · exact .inl before
      · exact .inr ⟨kept, .tail _ listed, .tail _ present, same⟩

/-- If the aggregate verifies, every message does. -/
theorem valid_of_verifyAggregated (consistent : Consistent messages)
    (verified : verifyAggregated curve messages = true) {msg : Message MessageId}
    (member : msg ∈ messages) :
    msg.valid curve = true := by
  rcases @exists_mem_withoutDups _ _ messages
    [] msg member with seen | ⟨kept, listed, present, same⟩
  · cases seen
  · have equal := consistent kept msg present member same
    subst equal
    exact curve.sound _ verified _ (mem_map_of_mem listed)

omit [DecidableEq MessageId] in
theorem mem_flatten_byMessageHash {msg : Message MessageId} :
    msg ∈ (byMessageHash messages).flatten <-> msg ∈ messages := by
  unfold byMessageHash
  rw [<- flatMap_def, mem_flatMap]
  constructor
  · rintro ⟨msgHash, _, member⟩
    exact (mem_filter.mp member).1
  · intro member
    refine ⟨msg.msgHash, mem_dedup.mpr (mem_map_of_mem member), ?_⟩
    exact mem_filter.mpr ⟨member, decide_eq_true rfl⟩

theorem valid_of_verifyBatchSecureLoop :
    ∀ {rounds : Nat} {groups : List (List (Message MessageId))},
    Consistent groups.flatten -> (∀ group ∈ groups, group.length <= rounds) ->
    verifyBatchSecureLoop curve rounds groups = true ->
    ∀ msg ∈ groups.flatten, msg.valid curve = true := by
  intro rounds
  induction rounds with
  | zero =>
    intro groups _ short _ msg member
    rcases mem_flatten.mp member with ⟨group, listed, present⟩
    have empty := length_eq_zero_iff.mp (Nat.le_zero.mp (short group listed))
    rw [empty] at present
    cases present
  | succ rounds ih =>
    intro groups consistent short verified msg member
    rcases mem_flatten.mp member with ⟨group, listed, present⟩
    have nonempty : groups.isEmpty = false := by
      cases groups with
      | nil => cases listed
      | cons _ _ => rfl
    rw [verifyBatchSecureLoop, nonempty, if_neg (by simp), Bool.and_eq_true] at verified
    rcases verified with ⟨now, later⟩
    have exists_last : group ≠ [] := ne_nil_of_mem present
    rcases mem_append.mp ((dropLast_append_getLast exists_last).symm ▸ present) with
      before | last
    · apply ih _ _ later
      · refine mem_flatten.mpr ⟨group.dropLast, mem_filter.mpr ⟨mem_map_of_mem listed, ?_⟩, before⟩
        rw [Bool.not_eq_true', isEmpty_eq_false_iff]
        exact ne_nil_of_mem before
      · have inside : ∀ other ∈ ((groups.map dropLast).filter fun group =>
          !group.isEmpty).flatten, other ∈ groups.flatten := by
          intro other otherMember
          rcases mem_flatten.mp otherMember with ⟨shorter, shorterListed, otherPresent⟩
          rcases mem_map.mp (mem_filter.mp shorterListed).1 with ⟨whole, wholeListed, same⟩
          rw [<- same] at otherPresent
          exact mem_flatten.mpr ⟨whole, wholeListed, (dropLast_sublist whole).subset otherPresent⟩
        intro one two oneMember twoMember
        exact consistent one two (inside one oneMember) (inside two twoMember)
      · intro shorter shorterListed
        rcases mem_map.mp (mem_filter.mp shorterListed).1 with ⟨whole, wholeListed, same⟩
        have bound := short whole wholeListed
        rw [<- same, length_dropLast]
        omega
    · have inside : ∀ other ∈ groups.filterMap getLast?, other ∈ groups.flatten := by
        intro other otherMember
        rcases mem_filterMap.mp otherMember with ⟨whole, wholeListed, ends⟩
        exact mem_flatten.mpr ⟨whole, wholeListed, mem_of_getLast? ends⟩
      apply valid_of_verifyAggregated (fun one two oneMember twoMember =>
        consistent one two (inside one oneMember) (inside two twoMember)) now
      refine mem_filterMap.mpr ⟨group, listed, ?_⟩
      rw [mem_singleton.mp last]
      exact getLast?_eq_getLast_of_ne_nil exists_last

end

/-- `CBLSBatchVerifier`.  What a source has pushed is stored. -/
structure CBLSBatchVerifier (SourceId MessageId : Type) where
  secureVerification : Bool
  perMessageFallback : Bool
  subBatchSize : Nat := 0
  messages : List (Message MessageId) := []
  messagesBySource : List (SourceId × Message MessageId) := []
  badSources : List SourceId := []
  badMessages : List MessageId := []
  distinct : (messages.map Message.msgId).Nodup := by exact List.nodup_nil
  listed : ∀ pushed ∈ messagesBySource, pushed.2 ∈ messages := by
    exact fun _ member => absurd member List.not_mem_nil

namespace CBLSBatchVerifier

variable {SourceId MessageId : Type} [DecidableEq SourceId] [DecidableEq MessageId]

section

variable (curve : BlsCurve) (verifier : CBLSBatchVerifier SourceId MessageId)

def verifyBatch (messages : List (Message MessageId)) : Bool :=
  if verifier.secureVerification then verifyBatchSecure curve messages
  else verifyBatchInsecure curve messages

def sources : List SourceId :=
  (verifier.messagesBySource.map Prod.fst).dedup

variable (source : SourceId)

def messagesOf : List (Message MessageId) :=
  (verifier.messagesBySource.filter fun pushed => pushed.1 = source).map Prod.snd

def checkMessages : List (Message MessageId) -> List MessageId -> List MessageId
  | [], badMessages => badMessages
  | msg :: rest, badMessages =>
    if msg.msgId ∈ badMessages then checkMessages rest badMessages
    else if !msg.valid curve then checkMessages rest (badMessages.insert msg.msgId)
    else checkMessages rest badMessages

/-- The batch of a source, which is not verified again if there was just one source. -/
def batchValid : Bool :=
  decide (verifier.sources.length ≠ 1) && verifier.verifyBatch curve (verifier.messagesOf source)

/-- One round of the loop over the sources in `Verify`. -/
def checkSource (bad : List SourceId × List MessageId) (source : SourceId) :
    List SourceId × List MessageId :=
  if verifier.batchValid curve source then bad
  else
    (bad.1.insert source, if verifier.perMessageFallback then
        match verifier.messagesOf source with
        | [msg] => bad.2.insert msg.msgId
        | pushed => checkMessages curve pushed bad.2
      else bad.2)

def verify : CBLSBatchVerifier SourceId MessageId :=
  if verifier.verifyBatch curve verifier.messages then verifier
  else
    let bad := verifier.sources.foldl (verifier.checkSource curve) (verifier.badSources, verifier.badMessages)
    { verifier with badSources := bad.1, badMessages := bad.2 }

def clearMessages : CBLSBatchVerifier SourceId MessageId :=
  { verifier with
    messages := []
    messagesBySource := []
    distinct := nodup_nil
    listed := fun _ member => absurd member not_mem_nil }

/-- Store a message, unless there is one with its id, and note what the source has pushed. -/
def emplace (msg : Message MessageId) : CBLSBatchVerifier SourceId MessageId :=
  match found : verifier.messages.find? fun other => other.msgId = msg.msgId with
  | some stored =>
    { verifier with
      messagesBySource := verifier.messagesBySource ++ [(source, stored)]
      listed := by
        intro pushed member
        rcases mem_append.mp member with before | now
        · exact verifier.listed pushed before
        · rw [mem_singleton.mp now]
          exact mem_of_find?_eq_some found }
  | none =>
    { verifier with
      messages := verifier.messages ++ [msg]
      messagesBySource := verifier.messagesBySource ++ [(source, msg)]
      distinct := by
        rw [map_append, map_singleton, nodup_append]
        refine ⟨verifier.distinct, nodup_singleton _, ?_⟩
        intro msgId member other single same
        rcases mem_map.mp member with ⟨stored, present, hasId⟩
        rw [mem_singleton.mp single] at same
        exact find?_eq_none.mp found stored present (decide_eq_true (hasId.trans same))
      listed := by
        intro pushed member
        rcases mem_append.mp member with before | now
        · exact mem_append_left _ (verifier.listed pushed before)
        · rw [mem_singleton.mp now]
          exact mem_append_right _ (mem_singleton_self msg) }

/-- Verify and forget the messages when there are enough for a batch. -/
def verifySubBatch : CBLSBatchVerifier SourceId MessageId :=
  if verifier.subBatchSize ≠ 0 /\ verifier.subBatchSize <= verifier.messages.length then
    (verifier.verify curve).clearMessages
  else verifier

/-- `CBLSBatchVerifier::PushMessage`, which asserts that the signature and the key are valid. -/
def pushMessage (msg : Message MessageId) : Option (CBLSBatchVerifier SourceId MessageId) :=
  if curve.scheme.isValidSignature msg.sig && curve.scheme.isValidPublicKey msg.pubKey then
    some ((verifier.emplace source msg).verifySubBatch curve)
  else none

end

/-! ## What is found bad -/

section

variable {curve : BlsCurve} {verifier : CBLSBatchVerifier SourceId MessageId}

omit [DecidableEq SourceId] [DecidableEq MessageId] in
theorem consistent (verifier : CBLSBatchVerifier SourceId MessageId) :
    Consistent verifier.messages :=
  fun _ _ one two same => inj_on_of_nodup_map verifier.distinct one two same

variable {msg : Message MessageId}

omit [DecidableEq SourceId] in
/-- If a batch of stored messages verifies, each of them does. -/
theorem valid_of_verifyBatch {batch : List (Message MessageId)}
    (stored : ∀ msg ∈ batch, msg ∈ verifier.messages)
    (verified : verifier.verifyBatch curve batch = true) (member : msg ∈ batch) :
    msg.valid curve = true := by
  have grouped : Consistent (byMessageHash batch).flatten := by
    intro one two first second
    exact verifier.consistent one two (stored one (mem_flatten_byMessageHash.mp first))
      (stored two (mem_flatten_byMessageHash.mp second))
  have present := mem_flatten_byMessageHash.mpr member
  unfold verifyBatch at verified
  split at verified
  · apply valid_of_verifyBatchSecureLoop grouped ?_ verified msg present
    intro group listed
    rcases mem_map.mp listed with ⟨_, _, same⟩
    rw [<- same]
    exact length_filter_le _ _
  · rw [verifyBatchInsecure, Bool.or_eq_true] at verified
    rcases verified with empty | verified
    · rw [isEmpty_iff.mp empty] at member
      cases member
    · exact valid_of_verifyAggregated grouped verified present

omit [DecidableEq MessageId] in
theorem mem_messagesOf_iff {source : SourceId} :
    msg ∈ verifier.messagesOf source <-> (source, msg) ∈ verifier.messagesBySource := by
  unfold messagesOf
  rw [mem_map]
  constructor
  · rintro ⟨⟨_, _⟩, member, same⟩
    rcases mem_filter.mp member with ⟨present, from_⟩
    cases same
    cases of_decide_eq_true from_
    exact present
  · intro member
    exact ⟨(source, msg), mem_filter.mpr ⟨member, decide_eq_true rfl⟩, rfl⟩

theorem mem_checkMessages {messages : List (Message MessageId)} {badMessages : List MessageId} :
    (∀ msgId ∈ badMessages, msgId ∈ checkMessages curve messages badMessages) /\ (∀ msg ∈ messages,
        msg.valid curve = true \/ msg.msgId ∈ checkMessages curve messages badMessages) /\
      (∀ msgId ∈ checkMessages curve messages badMessages,
        msgId ∈ badMessages \/ ∃ msg ∈ messages, msg.msgId = msgId) := by
  induction messages generalizing badMessages with
  | nil =>
    exact ⟨fun _ => id, fun _ member => absurd member (by simp), fun _ => .inl⟩
  | cons first rest ih =>
    have step : ∃ next, checkMessages curve (first :: rest) badMessages = checkMessages curve rest next /\
        (∀ msgId ∈ badMessages, msgId ∈ next) /\ (first.valid curve = true \/ first.msgId ∈ next) /\
        ∀ msgId ∈ next, msgId ∈ badMessages \/ msgId = first.msgId := by
      rw [checkMessages]
      split
      · next known => exact ⟨badMessages, rfl, fun _ => id, .inr known, fun _ => .inl⟩
      split
      · exact ⟨_, rfl, fun _ => mem_insert_of_mem, .inr mem_insert_self,
          fun _ member => (mem_insert_iff.mp member).symm⟩
      · next valid => exact ⟨badMessages, rfl, fun _ => id, .inl (by simpa using valid), fun _ => .inl⟩
    rcases step with ⟨next, same, kept, settled, found⟩
    rcases @ih next with ⟨keptRest, settledRest, foundRest⟩
    rw [same]
    refine ⟨fun msgId before => keptRest msgId (kept msgId before), ?_, ?_⟩
    · intro msg member
      rcases mem_cons.mp member with rfl | later
      · exact settled.imp_right (keptRest _)
      · exact settledRest msg later
    · intro msgId member
      rcases foundRest msgId member with before | ⟨msg, present, named⟩
      · exact (found msgId before).imp_right fun named => ⟨first, (.head _), named.symm⟩
      · exact .inr ⟨msg, .tail _ present, named⟩

/-- What is known after some sources were checked.  The two sets only grow, and what was checked and
is not among the bad ones can be trusted. -/
structure Settles (curve : BlsCurve) (verifier : CBLSBatchVerifier SourceId MessageId)
    (checked : List SourceId) (before after : List SourceId × List MessageId) : Prop where
  sources : ∀ source ∈ before.1, source ∈ after.1
  messages : ∀ msgId ∈ before.2, msgId ∈ after.2
  /-- The messages of a source that is not bad are valid. -/
  trusted : ∀ source ∈ checked, source ∉ after.1 ->
    ∀ msg, (source, msg) ∈ verifier.messagesBySource -> msg.valid curve = true
  /-- A message that is not bad is valid. -/
  settled : verifier.perMessageFallback = true -> ∀ source ∈ checked,
    ∀ msg, (source, msg) ∈ verifier.messagesBySource -> msg.valid curve = true \/ msg.msgId ∈ after.2
  /-- Only messages that were pushed are bad. -/
  pushed : ∀ msgId ∈ after.2, msgId ∈ before.2 \/ ∃ msg ∈ verifier.messages, msg.msgId = msgId

theorem settles_checkSource (bad : List SourceId × List MessageId) (source : SourceId) :
    Settles curve verifier [source] bad (verifier.checkSource curve bad source) := by
  have stored : ∀ msg ∈ verifier.messagesOf source, msg ∈ verifier.messages :=
    fun msg member => verifier.listed _ (mem_messagesOf_iff.mp member)
  unfold checkSource
  split
  · next batchValid =>
    have verified := (Bool.and_eq_true_iff.mp batchValid).2
    have valid : ∀ other ∈ [source],
      ∀ msg, (other, msg) ∈ verifier.messagesBySource -> msg.valid curve = true := by
      intro other single msg member
      rw [mem_singleton.mp single] at member
      exact valid_of_verifyBatch stored verified (mem_messagesOf_iff.mpr member)
    exact ⟨fun _ => id, fun _ => id, fun other single _ => valid other single,
      fun _ other single msg member => .inl (valid other single msg member), fun _ => .inl⟩
  · have untrusted : source ∈ bad.1.insert source := mem_insert_self
    refine ⟨fun _ before => mem_insert_of_mem before, ?_, ?_, ?_, ?_⟩
    · intro msgId before
      split
      · split
        · exact mem_insert_of_mem before
        · exact (@mem_checkMessages _ _ curve _ bad.2).1 msgId before
      · exact before
    · intro other single trusted
      rw [mem_singleton.mp single] at trusted
      exact absurd untrusted trusted
    · intro fallback other single msg member
      rw [mem_singleton.mp single] at member
      have present := mem_messagesOf_iff.mpr member
      rw [if_pos fallback]
      split
      · next only alone =>
        rw [alone] at present
        rw [mem_singleton.mp present]
        exact .inr mem_insert_self
      · exact (@mem_checkMessages _ _ curve _ bad.2).2.1 msg present
    · intro msgId member
      split at member
      · split at member
        · next only alone =>
          rcases mem_insert_iff.mp member with now | before
          · refine .inr ⟨only, stored only ?_, now.symm⟩
            rw [alone]
            exact mem_singleton_self only
          · exact .inl before
        · rcases (@mem_checkMessages _ _ curve _ bad.2).2.2 msgId member with before | ⟨msg, present, same⟩
          · exact .inl before
          · exact .inr ⟨msg, stored msg present, same⟩
      · exact .inl member

theorem settles_foldl (checked : List SourceId) : ∀ bad : List SourceId × List MessageId,
    Settles curve verifier checked bad (checked.foldl (verifier.checkSource curve) bad) := by
  induction checked with
  | nil =>
    intro bad
    exact ⟨fun _ => id, fun _ => id, nofun, nofun, fun _ => .inl⟩
  | cons source _ ih =>
    intro bad
    have first := @settles_checkSource _ _ _ _ curve verifier bad source
    have others := ih (verifier.checkSource curve bad source)
    refine ⟨fun other before => others.sources other (first.sources other before),
      fun msgId before => others.messages msgId (first.messages msgId before), ?_, ?_, ?_⟩
    · intro other member trusted
      rcases mem_cons.mp member with same | later
      · subst same
        exact first.trusted other (mem_singleton_self other) fun bad => trusted (others.sources other bad)
      · exact others.trusted other later trusted
    · intro fallback other member msg pushed
      rcases mem_cons.mp member with same | later
      · subst same
        rcases first.settled fallback other (mem_singleton_self other) msg pushed with valid | bad
        · exact .inl valid
        · exact .inr (others.messages _ bad)
      · exact others.settled fallback other later msg pushed
    · intro msgId member
      rcases others.pushed msgId member with before | now
      · exact first.pushed msgId before
      · exact .inr now

/-- What `Verify` finds about all that was pushed. -/
theorem settles_verify (curve : BlsCurve) (verifier : CBLSBatchVerifier SourceId MessageId) :
    Settles curve verifier verifier.sources (verifier.badSources, verifier.badMessages)
      ((verifier.verify curve).badSources, (verifier.verify curve).badMessages) := by
  unfold verify
  split
  · next verified =>
    have valid : ∀ source ∈ verifier.sources,
      ∀ msg, (source, msg) ∈ verifier.messagesBySource -> msg.valid curve = true := by
      intro source _ msg member
      exact valid_of_verifyBatch (fun _ => id) verified (verifier.listed _ member)
    exact ⟨fun _ => id, fun _ => id, fun source member _ => valid source member,
      fun _ source member msg pushed => .inl (valid source member msg pushed), fun _ => .inl⟩
  · exact settles_foldl verifier.sources _

omit [DecidableEq MessageId] in
theorem mem_sources_of_pushed {source : SourceId}
    (pushed : (source, msg) ∈ verifier.messagesBySource) : source ∈ verifier.sources :=
  mem_dedup.mpr (mem_map.mpr ⟨(source, msg), pushed, rfl⟩)

end

variable {curve : BlsCurve} {verifier : CBLSBatchVerifier SourceId MessageId} {source : SourceId}
  {msg : Message MessageId}

theorem eq_verifySubBatch_of_pushMessage {pushed : CBLSBatchVerifier SourceId MessageId}
    (accepted : verifier.pushMessage curve source msg = some pushed) :
    pushed = (verifier.emplace source msg).verifySubBatch curve := by
  unfold pushMessage at accepted
  split at accepted
  · exact (Option.some.inj accepted).symm
  · cases accepted

omit [DecidableEq SourceId]

@[simp]
theorem subBatchSize_emplace :
    (verifier.emplace source msg).subBatchSize = verifier.subBatchSize := by
  unfold emplace
  split <;> rfl

theorem mem_messages_emplace {other : Message MessageId}
    (member : other ∈ (verifier.emplace source msg).messages) :
    other ∈ verifier.messages \/ other = msg := by
  unfold emplace at member
  split at member
  · exact .inl member
  · rcases mem_append.mp member with before | now
    · exact .inl before
    · exact .inr (mem_singleton.mp now)

theorem pushed_emplace_of_pushed {pushed : SourceId × Message MessageId}
    (before : pushed ∈ verifier.messagesBySource) :
    pushed ∈ (verifier.emplace source msg).messagesBySource := by
  unfold emplace
  split <;> exact mem_append_left _ before

/-- The source has now pushed the message that is stored under the id. -/
theorem exists_pushed_emplace (verifier : CBLSBatchVerifier SourceId MessageId) (source : SourceId)
    (msg : Message MessageId) : ∃ stored, stored.msgId = msg.msgId /\
      (source, stored) ∈ (verifier.emplace source msg).messagesBySource := by
  unfold emplace
  split
  · next stored found =>
    have sameId := @List.find?_some _ (fun other : Message MessageId => decide (other.msgId = msg.msgId)) _ _ found
    exact ⟨stored, of_decide_eq_true sameId, mem_append_right _ (mem_singleton_self _)⟩
  · exact ⟨msg, rfl, mem_append_right _ (mem_singleton_self _)⟩

@[simp]
theorem badMessages_emplace : (verifier.emplace source msg).badMessages = verifier.badMessages := by
  unfold emplace
  split <;> rfl

end CBLSBatchVerifier
end StakeCubeCoin.Bls
