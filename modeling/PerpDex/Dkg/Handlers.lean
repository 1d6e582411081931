import PerpDex.Dkg.Node

/-! What the handlers of a node do to imports, when they fail, and what they publish.
No handler touches the imports of a ceremony except that a new ceremony begins without any. A
handler that fails changes and publishes nothing, and `Round2Done` comes from a wait that has
counted enough imports.
-/

namespace PerpDex.Dkg

-----------------------------------------------------------------------------------------
-- When a handler fails
-----------------------------------------------------------------------------------------

def Effect.isFailed (effect : Effect) : Prop := ∃ reason, effect.progress = .failed reason

/-- The messages that make the follower fail while another ceremony than theirs is active: a
first round without the node, and any later round.
-/
def Unwelcome (identity : LocalIdentity) : DkgStepMessage → Prop
  | .round1Start _ _ _ pidAssignment => ∀ entry ∈ pidAssignment, entry.1 ≠ identity.xrplAddress
  | .round15Start _ => True
  | .round2Start _ _ => True
  | .finalizeStart _ => True
  | _ => False

/-- The imports of the ceremony that is active, whichever it is. -/
def importCount (active : Option ActiveCeremony) : Nat :=
  (active.map (fun ceremony => ceremony.importedFromPid.card)).getD 0

/-- The answers on which a suspended handler fails: a refusal of the enclave, a next peer
without a known key, or a wait that expires.
-/
def FailingAnswer (identity : LocalIdentity) (active : Option ActiveCeremony)
    : Task → Resume → Prop
  | .generate .., .generated (.error _) => True
  | .exportShare _ myPid _ _ remaining, .exported (.ok _) =>
      ∃ peer, remaining.find? (fun entry => entry.2 ≠ myPid) = some peer
        ∧ identity.peers.lookup peer.1 = none
  | .exportShare .., .exported (.error _) => True
  | .awaitImports _ _ want, .polled expired => expired = true ∧ importCount active < want
  | .finalize .., .finalized (.error _) => True
  | _, _ => False

-----------------------------------------------------------------------------------------
-- What a piece of a handler can do
-----------------------------------------------------------------------------------------

/-- Messages that say neither that imports are complete nor that something failed. -/
def DkgStepMessage.isNeutral : DkgStepMessage → Bool
  | .round2Done .. => false
  | .abort .. => false
  | _ => true

/-- The ceremony that is active afterwards was active before, with the same imports, or has
none yet.
-/
def ImportsKept (active after : Option ActiveCeremony) : Prop :=
  ∀ ceremony, after = some ceremony
  → ceremony.importedFromPid = ∅
    ∨ ∃ before, active = some before ∧ before.ceremonyId = ceremony.ceremonyId
        ∧ before.importedFromPid = ceremony.importedFromPid

/-- A piece of a handler keeps the imports, and one that fails changes nothing and publishes
nothing.
-/
structure Orderly (active : Option ActiveCeremony) (effect : Effect) : Prop where
  kept : ImportsKept active effect.active
  failed : effect.isFailed → effect.active = active ∧ effect.steps = []
  noAbort : ∀ ceremonyId pid reason, .abort ceremonyId pid reason ∉ effect.steps

section Pieces

variable {identity : LocalIdentity} {active : Option ActiveCeremony}

theorem ImportsKept.refl : ImportsKept active active :=
  fun ceremony isActive => .inr ⟨ceremony, isActive, rfl, rfl⟩

theorem importsKept_onCeremony (id : String) {change : ActiveCeremony → ActiveCeremony}
    (sameId : ∀ ceremony, (change ceremony).ceremonyId = ceremony.ceremonyId)
    (sameImports
      : ∀ ceremony, (change ceremony).importedFromPid = ceremony.importedFromPid)
    : ImportsKept active (onCeremony active id change) := by
  intro ceremony isActive
  obtain ⟨before, wasActive, rfl⟩ := Option.map_eq_some_iff.mp isActive
  refine .inr ⟨before, wasActive, ?_⟩
  split
  · exact ⟨(sameId before).symm, (sameImports before).symm⟩
  · exact ⟨rfl, rfl⟩

theorem orderly_recorded {after : Option ActiveCeremony} (kept : ImportsKept active after)
    : Orderly active (recorded after) where
  kept := kept
  failed := fun ⟨_, isFailed⟩ => (by cases isFailed)
  noAbort := fun _ _ _ member => (by cases member)

theorem orderly_waiting (task : Task) : Orderly active (waiting active task) where
  kept := .refl
  failed := fun ⟨_, isFailed⟩ => (by cases isFailed)
  noAbort := fun _ _ _ member => (by cases member)

theorem orderly_failure (reason : String) : Orderly active (failure active reason) where
  kept := .refl
  failed := fun _ => ⟨rfl, rfl⟩
  noAbort := fun _ _ _ member => (by cases member)

/-- A piece that finishes with the publication of one message other than an abort. -/
theorem orderly_publishing {after : Option ActiveCeremony} {message : DkgStepMessage}
    {finalized : List (String × String)} (kept : ImportsKept active after)
    (noAbort : ∀ ceremonyId pid reason, message ≠ .abort ceremonyId pid reason)
    : Orderly active { active := after, progress := .finished, steps := [message], finalized }
    where
  kept := kept
  failed := fun ⟨_, isFailed⟩ => (by cases isFailed)
  noAbort := fun id pid reason member => noAbort id pid reason (List.mem_singleton.mp member).symm

theorem exportNext_orderly (id : String) (myPid : Nat) (remaining : List (String × Nat))
    : Orderly active (exportNext identity active id myPid remaining) := by
  induction remaining with
  | nil =>
      exact orderly_publishing (importsKept_onCeremony id (fun _ => rfl) (fun _ => rfl))
        (by simp)
  | cons entry rest ih =>
      unfold exportNext
      split
      · exact ih
      · split
        · exact orderly_failure _
        · exact orderly_waiting _

/-- The export loop publishes nothing but the end of its round. -/
theorem exportNext_neutral (id : String) (myPid : Nat) (remaining : List (String × Nat))
    : ∀ message ∈ (exportNext identity active id myPid remaining).steps,
      message.isNeutral = true := by
  induction remaining with
  | nil =>
      intro message member
      rw [List.mem_singleton.mp member]
      rfl
  | cons entry rest ih =>
      unfold exportNext
      split
      · exact ih
      · split
        · simp [failure]
        · simp [waiting]

/-- The export loop fails at the next peer, if that has no known key. -/
theorem exportNext_failed (id : String) (myPid : Nat) {remaining : List (String × Nat)}
    (failed : (exportNext identity active id myPid remaining).isFailed)
    : ∃ peer, remaining.find? (fun entry => entry.2 ≠ myPid) = some peer
      ∧ identity.peers.lookup peer.1 = none := by
  induction remaining with
  | nil =>
      obtain ⟨reason, isFailed⟩ := failed
      cases isFailed
  | cons entry rest ih =>
      unfold exportNext at failed
      split at failed
      case isTrue own =>
        obtain ⟨peer, isNext, unknown⟩ := ih failed
        refine ⟨peer, ?_, unknown⟩
        rw [List.find?_cons_of_neg (by simp [own])]
        exact isNext
      case isFalse other =>
        split at failed
        case h_1 unknown =>
          exact ⟨entry, List.find?_cons_of_pos (by simp [other]), unknown⟩
        case h_2 =>
          obtain ⟨reason, isFailed⟩ := failed
          cases isFailed

/-- A message that is handled. -/
theorem handleMessage_orderly (message : DkgStepMessage)
    : Orderly active (handleMessage identity active message) := by
  cases message with
  | round1Start id threshold n pidAssignment =>
      show Orderly active (round1Start identity active id threshold n pidAssignment)
      unfold round1Start
      split
      · exact orderly_failure _
      · exact orderly_waiting _
  | round15Start id =>
      show Orderly active (round15Start identity active id)
      unfold round15Start
      split
      · exact orderly_failure _
      · exact exportNext_orderly id _ _
  | round2Start id commitments =>
      show Orderly active (round2Start active id)
      unfold round2Start
      split
      · exact orderly_failure _
      · exact orderly_waiting _
  | finalizeStart id =>
      show Orderly active (finalizeStart active id)
      unfold finalizeStart
      split
      · exact orderly_failure _
      · exact orderly_waiting _
  | abort id pid reason =>
      refine orderly_recorded (fun ceremony isActive => ?_)
      exact ImportsKept.refl ceremony (Option.filter_eq_some_iff.mp isActive).1
  | round1Done id pid vss =>
      exact orderly_recorded (importsKept_onCeremony id (fun _ => rfl) (fun _ => rfl))
  | round15Done id pid =>
      exact orderly_recorded (importsKept_onCeremony id (fun _ => rfl) (fun _ => rfl))
  | round2Done id pid =>
      exact orderly_recorded (importsKept_onCeremony id (fun _ => rfl) (fun _ => rfl))
  | finalizeDone id pid key =>
      exact orderly_recorded (importsKept_onCeremony id (fun _ => rfl) (fun _ => rfl))

/-- For a message it handles a node publishes neutral messages only, by cases on the message. -/
theorem handleMessage_neutral (message : DkgStepMessage)
    : ∀ published ∈ (handleMessage identity active message).steps,
      published.isNeutral = true := by
  cases message with
  | round1Start id threshold n pidAssignment =>
      show ∀ published ∈ (round1Start identity active id threshold n pidAssignment).steps, _
      unfold round1Start
      split
      · simp [failure]
      · simp [waiting]
  | round15Start id =>
      show ∀ published ∈ (round15Start identity active id).steps, _
      unfold round15Start
      split
      · simp [failure]
      · exact exportNext_neutral id _ _
  | round2Start id commitments =>
      show ∀ published ∈ (round2Start active id).steps, _
      unfold round2Start
      split
      · simp [failure]
      · simp [waiting]
  | finalizeStart id =>
      show ∀ published ∈ (finalizeStart active id).steps, _
      unfold finalizeStart
      split
      · simp [failure]
      · simp [waiting]
  | _ => simp [handleMessage, recorded]

/-- Only unwelcome messages make the handler of a message fail. -/
theorem handleMessage_failed {message : DkgStepMessage}
    (failed : (handleMessage identity active message).isFailed)
    : Unwelcome identity message := by
  obtain ⟨reason, isFailed⟩ := failed
  cases message with
  | round1Start id threshold n pidAssignment =>
      replace isFailed
        : (round1Start identity active id threshold n pidAssignment).progress
          = .failed reason := isFailed
      unfold round1Start at isFailed
      split at isFailed
      case h_1 absent =>
        intro entry member same
        exact List.find?_eq_none.mp absent entry member (decide_eq_true same)
      case h_2 => cases isFailed
  | round15Start id => trivial
  | round2Start id commitments => trivial
  | finalizeStart id => trivial
  | _ => cases isFailed

/-- A suspended handler that goes on. -/
theorem resumeTask_orderly {task : Task} {answer : Resume} {effect : Effect}
    (resumed : resumeTask identity active task answer = some effect)
    : Orderly active effect := by
  unfold resumeTask at resumed
  split at resumed
  case h_1 id threshold n pidAssignment myPid vss =>
    cases resumed
    refine orderly_publishing (fun ceremony isActive => .inl ?_) (by simp)
    cases isActive
    rfl
  case h_3 id myPid peer peerEcdh remaining envelope =>
    cases resumed
    have next : Orderly active (exportNext identity active id myPid remaining) :=
      exportNext_orderly id myPid remaining
    exact ⟨next.kept, next.failed, next.noAbort⟩
  case h_5 id myPid want expired =>
    dsimp only at resumed
    split at resumed
    · cases resumed
      exact orderly_publishing (importsKept_onCeremony id (fun _ => rfl) (fun _ => rfl))
        (by simp)
    split at resumed
    · cases resumed
      exact orderly_failure _
    · cases resumed
      exact orderly_waiting _
  case h_6 id myPid key =>
    cases resumed
    exact orderly_publishing (importsKept_onCeremony id (fun _ => rfl) (fun _ => rfl))
      (by simp)
  case h_8 => cases resumed
  all_goals
    cases resumed
    exact orderly_failure _

/-- The end of the second round is published by a wait that has counted enough imports. -/
theorem resumeTask_round2Done {task : Task} {answer : Resume} {effect : Effect}
    (resumed : resumeTask identity active task answer = some effect) {id : String} {pid : Nat}
    (published : .round2Done id pid ∈ effect.steps)
    : ∃ want expired, task = .awaitImports id pid want ∧ answer = .polled expired
      ∧ want ≤ importCount active := by
  unfold resumeTask at resumed
  split at resumed
  case h_3 exporting myPid peer peerEcdh remaining envelope =>
    cases resumed
    have neutral := exportNext_neutral exporting myPid remaining _ published
    cases neutral
  case h_5 own myPid want expired =>
    dsimp only at resumed
    split at resumed
    case isTrue enough =>
      cases resumed
      obtain ⟨rfl, rfl⟩ : id = own ∧ pid = myPid := by simpa using published
      exact ⟨want, expired, rfl, rfl, enough⟩
    case isFalse =>
      split at resumed
      · cases resumed
        cases published
      · cases resumed
        cases published
  case h_8 => cases resumed
  all_goals
    cases resumed
    simp [failure] at published

/-- Only failing answers make a suspended handler fail. -/
theorem resumeTask_failed {task : Task} {answer : Resume} {effect : Effect}
    (resumed : resumeTask identity active task answer = some effect) (failed : effect.isFailed)
    : FailingAnswer identity active task answer := by
  unfold resumeTask at resumed
  split at resumed
  case h_3 id myPid peer peerEcdh remaining envelope =>
    cases resumed
    exact exportNext_failed id myPid failed
  case h_5 id myPid want expired =>
    obtain ⟨reason, isFailed⟩ := failed
    dsimp only at resumed
    split at resumed
    case isTrue =>
      cases resumed
      cases isFailed
    case isFalse few =>
      split at resumed
      case isTrue late =>
        exact ⟨late, Nat.lt_of_not_le few⟩
      case isFalse =>
        cases resumed
        cases isFailed
  case h_8 => cases resumed
  all_goals
    cases resumed
    first
      | trivial
      | (obtain ⟨reason, isFailed⟩ := failed; cases isFailed)

end Pieces

-----------------------------------------------------------------------------------------
-- What a step of the node can do
-----------------------------------------------------------------------------------------

/-- A request sends messages that start a round. -/
def SendsNeutral : Driver → Prop
  | .sending _ _ _ _ message _ => message.isNeutral = true
  | _ => True

/-- A piece of a request. -/
structure RequestOrderly (active : Option ActiveCeremony) (piece : Driver × Effect) : Prop where
  kept : ImportsKept active piece.2.active
  sends : SendsNeutral piece.1

/-- A step that neither begins nor ends an import. -/
structure Bystander (node after : Node) : Prop where
  kept : ImportsKept node.active after.active
  importer : after.importer = node.importer
  sends : ∀ request, SendsNeutral (after.drivers request)

section NodeSteps

variable {node : Node} {effect : Effect}

/-- The follower loop aborts only after a failure, and then the ceremony that is active. -/
theorem follow_abort {id reason : String} {pid : Nat} (orderly : Orderly node.active effect)
    (published : .abort id pid reason ∈ (node.follow effect).2.steps)
    : effect.isFailed ∧ ∃ ceremony, node.active = some ceremony ∧ ceremony.ceremonyId = id := by
  unfold Node.follow at published
  split at published
  case h_1 => exact absurd published (orderly.noAbort id pid reason)
  case h_2 => exact absurd published (orderly.noAbort id pid reason)
  case h_3 cause isFailed =>
    obtain ⟨unchanged, silent⟩ := orderly.failed ⟨cause, isFailed⟩
    dsimp only at published
    rw [silent, unchanged, List.nil_append] at published
    obtain ⟨ceremony, isActive, same⟩ := List.mem_map.mp published
    cases same
    exact ⟨⟨reason, isFailed⟩, ceremony, Option.mem_toList.mp isActive, rfl⟩

/-- The follower loop publishes the end of the second round only for its handler. -/
theorem follow_round2Done {id : String} {pid : Nat}
    (published : .round2Done id pid ∈ (node.follow effect).2.steps)
    : .round2Done id pid ∈ effect.steps := by
  unfold Node.follow at published
  split at published
  case h_1 => exact published
  case h_2 => exact published
  case h_3 =>
    rcases List.mem_append.mp published with own | aborted
    · exact own
    · obtain ⟨ceremony, _, same⟩ := List.mem_map.mp aborted
      cases same

theorem bystander_follow (sends : ∀ request, SendsNeutral (node.drivers request))
    (orderly : Orderly node.active effect)
    : Bystander node (node.follow effect).1 where
  kept := by
    rw [follow_active]
    exact orderly.kept
  importer := follow_importer node effect
  sends := by
    rw [follow_drivers]
    exact sends

theorem bystander_self (sends : ∀ request, SendsNeutral (node.drivers request))
    : Bystander node node :=
  ⟨.refl, rfl, sends⟩

theorem bystander_drive (sends : ∀ request, SendsNeutral (node.drivers request))
    (request : Nat) {piece : Driver × Effect} (orderly : RequestOrderly node.active piece)
    : Bystander node (node.drive request piece).1 where
  kept := orderly.kept
  importer := rfl
  sends := by
    intro other
    show SendsNeutral (Function.update node.drivers request piece.1 other)
    by_cases same : other = request
    · subst same
      rw [Function.update_self]
      exact orderly.sends
    · rw [Function.update_of_ne same]
      exact sends other

variable {active : Option ActiveCeremony} {initial : Bool} {id : String} {n : Nat} {sent : Sent}
  {message : DkgStepMessage}

theorem selfHandled_orderly (orderly : Orderly active effect)
    (neutral : message.isNeutral = true)
    : RequestOrderly active (selfHandled initial id n sent message effect) := by
  unfold selfHandled
  split
  · exact ⟨orderly.kept, neutral⟩
  · exact ⟨orderly.kept, trivial⟩
  · split
    · exact ⟨orderly.kept, trivial⟩
    · exact ⟨orderly.kept, trivial⟩

/-- A request adds at most its own message to what its handler publishes. -/
theorem mem_selfHandled_steps {published : DkgStepMessage}
    (member : published ∈ (selfHandled initial id n sent message effect).2.steps)
    : published ∈ effect.steps ∨ published = message := by
  unfold selfHandled at member
  split at member
  · exact .inl member
  · rcases List.mem_append.mp member with own | sent
    · exact .inl own
    · exact .inr (List.mem_singleton.mp sent)
  · split at member
    · exact .inl member
    · exact .inl member

/-- A request that handles its own neutral message publishes neutral messages. -/
theorem selfHandled_neutral {identity : LocalIdentity} (neutral : message.isNeutral = true)
    : ∀ published
      ∈ (selfHandled initial id n sent message (handleMessage identity active message)).2.steps,
      published.isNeutral = true := by
  intro published member
  rcases mem_selfHandled_steps member with own | same
  · exact handleMessage_neutral message published own
  · rw [same]
    exact neutral

variable {identity : LocalIdentity}

/-- The first piece of a request. -/
theorem handleStartDkg_orderly (threshold : Nat)
    : RequestOrderly active (handleStartDkg identity active id threshold)
      ∧ ∀ published ∈ (handleStartDkg identity active id threshold).2.steps,
        published.isNeutral = true := by
  unfold handleStartDkg
  dsimp only
  split
  case h_1 => exact ⟨⟨.refl, trivial⟩, fun _ member => (by cases member)⟩
  case h_2 => exact ⟨selfHandled_orderly (handleMessage_orderly _) rfl, selfHandled_neutral rfl⟩

/-- A round of the loop that drives a ceremony. -/
theorem driveCeremony_orderly (expired : Bool)
    : RequestOrderly active (driveCeremony identity active id n sent expired)
      ∧ ∀ published ∈ (driveCeremony identity active id n sent expired).2.steps,
        published.isNeutral = true := by
  unfold driveCeremony
  split
  · exact ⟨⟨.refl, trivial⟩, fun _ member => (by cases member)⟩
  split
  · exact ⟨⟨.refl, trivial⟩, fun _ member => (by cases member)⟩
  split
  · exact ⟨⟨fun _ isActive => (by cases isActive), trivial⟩, fun _ member => (by cases member)⟩
  split
  · exact ⟨selfHandled_orderly (handleMessage_orderly _) rfl, selfHandled_neutral rfl⟩
  split
  · exact ⟨selfHandled_orderly (handleMessage_orderly _) rfl, selfHandled_neutral rfl⟩
  split
  · exact ⟨selfHandled_orderly (handleMessage_orderly _) rfl, selfHandled_neutral rfl⟩
  · exact ⟨⟨.refl, trivial⟩, fun _ member => (by cases member)⟩

end NodeSteps

end PerpDex.Dkg
