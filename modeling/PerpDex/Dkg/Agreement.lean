import PerpDex.Lib.Run
import PerpDex.Dkg.Node

/-! What the leader's success says about the participants.
The leader concludes from as many acknowledgements as there are participants. The network may
lose, repeat, reorder and forge messages; nothing ties an acknowledgement to its sender.
-/

namespace PerpDex.Dkg

-----------------------------------------------------------------------------------------
-- The cluster under any network
-----------------------------------------------------------------------------------------

/-- An identity for each address. -/
structure Cluster where
  identity : String → LocalIdentity
  named : ∀ address, (identity address).xrplAddress = address

/-- All nodes, and what has been obtained from `dkg_finalize`: where, for which ceremony, and
the key.
-/
structure World where
  nodes : String → Node
  finalized : List (String × String × String)

def World.fresh (cluster : Cluster) : World where
  nodes := fun address => .fresh (cluster.identity address)
  finalized := []

/-- An event at one node. What a node receives is up to the network. -/
def World.step (world : World) (event : String × NodeEvent) : World :=
  let result := (world.nodes event.1).step event.2
  {
    nodes := Function.update world.nodes event.1 result.1,
    finalized := world.finalized ++ result.2.finalized.map (fun call => (event.1, call))
  }

/-- The id an assignment gives an address. -/
def pidOf (pidAssignment : List (String × Nat)) (address : String) : Option Nat :=
  (pidAssignment.find? (fun entry => entry.1 = address)).map Prod.snd

section Agreement

variable (cluster : Cluster) (leader ceremonyId : String)

/-- The assignment of the ceremonies that a node starts. -/
def assignmentOf : List (String × Nat) := buildPidAssignment (cluster.identity leader)

/-- The participant with an id has run `finalize_start` for the ceremony and obtained a key. -/
def Acknowledged (finalized : List (String × String × String)) (pid : Nat) (key : String)
    : Prop :=
  ∃ address, (address, pid) ∈ assignmentOf cluster leader
    ∧ (address, ceremonyId, key) ∈ finalized

/-- What reaches the leader about the ceremony is as the participants would send it: an
acknowledged key has been obtained by the participant with that id, and no start of the
ceremony gives the leader another id than its own.
-/
structure Genuine (world : World) (event : String × NodeEvent) : Prop where
  finalizeDone : ∀ pid key, event = (leader, .receive (.finalizeDone ceremonyId pid key)) →
    Acknowledged cluster leader ceremonyId world.finalized pid key
  round1Start : ∀ threshold n pidAssignment pid,
    event = (leader, .receive (.round1Start ceremonyId threshold n pidAssignment)) →
      pidOf pidAssignment leader = some pid →
        pidOf (assignmentOf cluster leader) leader = some pid

/-- Every address of the assignment has obtained the key from its own enclave. -/
def Agreed (world : World) (key : String) : Prop :=
  ∀ entry ∈ assignmentOf cluster leader, (entry.1, ceremonyId, key) ∈ world.finalized

/-- Whenever a request at the leader has answered that the ceremony is a success, the answer
has a key on which the participants agree.
-/
def SuccessMeansAgreement (world : World) : Prop :=
  ∀ request response, ((world.nodes leader).drivers request).response = some response →
    response.ceremonyId = ceremonyId → response.status = .success →
      ∃ key, response.groupPubkey = some key ∧ Agreed cluster leader ceremonyId world key

end Agreement

-----------------------------------------------------------------------------------------
-- What the leader keeps
-----------------------------------------------------------------------------------------

section Kept

variable (ceremonyId : String) (own : Nat) (acknowledged : Nat → String → Prop)

/-- While the ceremony is active, the leader has its own id and every key it has noted is
acknowledged.
-/
def ActiveKept (active : Option ActiveCeremony) : Prop :=
  ∀ ceremony, active = some ceremony → ceremony.ceremonyId = ceremonyId →
    ceremony.myPid = own
      ∧ ∀ pid key, ceremony.finalizeDone.lookup pid = some key → acknowledged pid key

/-- A suspended handler of the ceremony works under the leader's own id. -/
def TaskKept : Task → Prop
  | .generate id _ _ _ myPid => id = ceremonyId → myPid = own
  | .finalize id myPid => id = ceremonyId → myPid = own
  | _ => True

def ProgressKept : Progress → Prop
  | .suspended task => TaskKept ceremonyId own task
  | _ => True

/-- A piece of a handler keeps what the leader keeps. -/
structure EffectKept (effect : Effect) : Prop where
  active : ActiveKept ceremonyId own acknowledged effect.active
  progress : ProgressKept ceremonyId own effect.progress

end Kept

section KeptLemmas

variable {ceremonyId : String} {own : Nat} {acknowledged : Nat → String → Prop}
  {active : Option ActiveCeremony}

theorem ActiveKept.mono {wider : Nat → String → Prop}
    (kept : ActiveKept ceremonyId own acknowledged active)
    (grows : ∀ pid key, acknowledged pid key → wider pid key)
    : ActiveKept ceremonyId own wider active := by
  intro ceremony isActive same
  obtain ⟨myPid, keys⟩ := kept ceremony isActive same
  exact ⟨myPid, fun pid key noted => grows pid key (keys pid key noted)⟩

theorem activeKept_none : ActiveKept ceremonyId own acknowledged none := by
  intro ceremony nothing
  cases nothing

/-- A change that leaves the ceremony's identity and its keys alone. -/
theorem ActiveKept.map (kept : ActiveKept ceremonyId own acknowledged active)
    {change : ActiveCeremony → ActiveCeremony}
    (sameId : ∀ ceremony, (change ceremony).ceremonyId = ceremony.ceremonyId)
    (samePid : ∀ ceremony, (change ceremony).myPid = ceremony.myPid)
    (sameKeys : ∀ ceremony, (change ceremony).finalizeDone = ceremony.finalizeDone)
    : ActiveKept ceremonyId own acknowledged (active.map change) := by
  intro ceremony isActive same
  obtain ⟨before, wasActive, rfl⟩ := Option.map_eq_some_iff.mp isActive
  rw [sameId] at same
  rw [samePid, sameKeys]
  exact kept before wasActive same

theorem ActiveKept.onCeremony (kept : ActiveKept ceremonyId own acknowledged active)
    (id : String) {change : ActiveCeremony → ActiveCeremony}
    (sameId : ∀ ceremony, (change ceremony).ceremonyId = ceremony.ceremonyId)
    (samePid : ∀ ceremony, (change ceremony).myPid = ceremony.myPid)
    (sameKeys : ∀ ceremony, (change ceremony).finalizeDone = ceremony.finalizeDone)
    : ActiveKept ceremonyId own acknowledged (Dkg.onCeremony active id change) := by
  refine kept.map (fun ceremony => ?_) (fun ceremony => ?_) (fun ceremony => ?_)
  · split
    · exact sameId ceremony
    · rfl
  · split
    · exact samePid ceremony
    · rfl
  · split
    · exact sameKeys ceremony
    · rfl

/-- A key that is noted for the ceremony has to be acknowledged. -/
theorem ActiveKept.noteKey (kept : ActiveKept ceremonyId own acknowledged active)
    {id : String} {pid : Nat} {key : String} (genuine : id = ceremonyId → acknowledged pid key)
    : ActiveKept ceremonyId own acknowledged (Dkg.onCeremony active id (fun ceremony =>
      { ceremony with finalizeDone := ceremony.finalizeDone.insert pid key })) := by
  intro ceremony isActive same
  obtain ⟨before, wasActive, rfl⟩ := Option.map_eq_some_iff.mp isActive
  split at same
  case isTrue changed =>
    rw [if_pos changed]
    obtain ⟨myPid, keys⟩ := kept before wasActive same
    refine ⟨myPid, fun other noted isNoted => ?_⟩
    by_cases isPid : other = pid
    · subst isPid
      rw [AList.lookup_insert] at isNoted
      cases isNoted
      exact genuine (changed.symm.trans same)
    · rw [AList.lookup_insert_ne isPid] at isNoted
      exact keys other noted isNoted
  case isFalse unchanged =>
    rw [if_neg unchanged]
    exact kept before wasActive same

/-- The active ceremony looked up by id. -/
theorem ActiveKept.of_ofCeremony (kept : ActiveKept ceremonyId own acknowledged active)
    {id : String} {ceremony : ActiveCeremony} (found : ofCeremony active id = some ceremony)
    (same : id = ceremonyId)
    : ceremony.myPid = own
      ∧ ∀ pid key, ceremony.finalizeDone.lookup pid = some key → acknowledged pid key := by
  obtain ⟨isActive, isId⟩ := Option.filter_eq_some_iff.mp found
  exact kept ceremony isActive ((of_decide_eq_true isId).trans same)

theorem exportNext_kept (identity : LocalIdentity)
    (kept : ActiveKept ceremonyId own acknowledged active) (id : String) (myPid : Nat)
    (remaining : List (String × Nat))
    : EffectKept ceremonyId own acknowledged (exportNext identity active id myPid remaining) := by
  induction remaining with
  | nil => exact ⟨kept.onCeremony id (fun _ => rfl) (fun _ => rfl) (fun _ => rfl), trivial⟩
  | cons entry rest ih =>
      unfold exportNext
      split
      · exact ih
      · split
        · exact ⟨kept, trivial⟩
        · exact ⟨kept, trivial⟩

/-- A message keeps what the leader keeps if it is genuine. -/
theorem handleMessage_kept {identity : LocalIdentity} {message : DkgStepMessage}
    (kept : ActiveKept ceremonyId own acknowledged active)
    (finalizeDone : ∀ pid key, message = .finalizeDone ceremonyId pid key → acknowledged pid key)
    (round1Start : ∀ threshold n pidAssignment pid,
      message = .round1Start ceremonyId threshold n pidAssignment →
        pidOf pidAssignment identity.xrplAddress = some pid → pid = own)
    : EffectKept ceremonyId own acknowledged (handleMessage identity active message) := by
  cases message with
  | round1Start id threshold n pidAssignment =>
      show EffectKept _ _ _ (Dkg.round1Start identity active id threshold n pidAssignment)
      unfold Dkg.round1Start
      split
      case h_1 => exact ⟨kept, trivial⟩
      case h_2 entry found =>
        refine ⟨kept, fun same => round1Start threshold n pidAssignment entry.2 ?_ ?_⟩
        · rw [same]
        · rw [pidOf, found]
          rfl
  | round1Done id pid vss =>
      exact ⟨kept.onCeremony id (fun _ => rfl) (fun _ => rfl) (fun _ => rfl), trivial⟩
  | round15Start id =>
      show EffectKept _ _ _ (round15Start identity active id)
      unfold round15Start
      split
      · exact ⟨kept, trivial⟩
      · exact exportNext_kept identity kept id _ _
  | round15Done id pid =>
      exact ⟨kept.onCeremony id (fun _ => rfl) (fun _ => rfl) (fun _ => rfl), trivial⟩
  | round2Start id commitments =>
      show EffectKept _ _ _ (round2Start active id)
      unfold round2Start
      split
      · exact ⟨kept, trivial⟩
      · exact ⟨kept, trivial⟩
  | round2Done id pid =>
      exact ⟨kept.onCeremony id (fun _ => rfl) (fun _ => rfl) (fun _ => rfl), trivial⟩
  | finalizeStart id =>
      show EffectKept _ _ _ (finalizeStart active id)
      unfold finalizeStart
      split
      case h_1 => exact ⟨kept, trivial⟩
      case h_2 ceremony found => exact ⟨kept, fun same => (kept.of_ofCeremony found same).1⟩
  | finalizeDone id pid key =>
      refine ⟨kept.noteKey (fun same => finalizeDone pid key ?_), trivial⟩
      rw [same]
  | abort id pid reason =>
      refine ⟨fun ceremony isActive same => ?_, trivial⟩
      exact kept ceremony (Option.filter_eq_some_iff.mp isActive).1 same

/-- A suspended handler that goes on keeps it, given that a key it obtains itself counts as
acknowledged.
-/
theorem resumeTask_kept {identity : LocalIdentity} {task : Task} {answer : Resume}
    {effect : Effect} (kept : ActiveKept ceremonyId own acknowledged active)
    (taskKept : TaskKept ceremonyId own task)
    (resumed : resumeTask identity active task answer = some effect)
    (obtained : ∀ key, (ceremonyId, key) ∈ effect.finalized → acknowledged own key)
    : EffectKept ceremonyId own acknowledged effect := by
  unfold resumeTask at resumed
  split at resumed
  case h_1 id threshold n pidAssignment myPid vss =>
    cases resumed
    refine ⟨fun ceremony isActive same => ?_, trivial⟩
    cases isActive
    refine ⟨taskKept same, fun pid key noted => ?_⟩
    rw [begun, AList.lookup_empty] at noted
    cases noted
  case h_3 id myPid peer peerEcdh remaining envelope =>
    cases resumed
    have next := exportNext_kept identity kept id myPid remaining
    exact ⟨next.active, next.progress⟩
  case h_5 id myPid want expired =>
    dsimp only at resumed
    split at resumed
    · cases resumed
      exact ⟨kept.onCeremony id (fun _ => rfl) (fun _ => rfl) (fun _ => rfl), trivial⟩
    split at resumed
    · cases resumed
      exact ⟨kept, trivial⟩
    · cases resumed
      exact ⟨kept, trivial⟩
  case h_6 id myPid key =>
    cases resumed
    refine ⟨kept.noteKey (fun same => ?_), trivial⟩
    rw [taskKept same]
    exact obtained key (by simp [same])
  case h_8 => cases resumed
  all_goals
    cases resumed
    exact ⟨kept, trivial⟩

end KeptLemmas

-----------------------------------------------------------------------------------------
-- Requests
-----------------------------------------------------------------------------------------

/-- Ids are positions, so each belongs to one address. -/
theorem address_unique {identity : LocalIdentity} {left right : String} {pid : Nat}
    (isLeft : (left, pid) ∈ buildPidAssignment identity)
    (isRight : (right, pid) ∈ buildPidAssignment identity)
    : left = right := by
  have first := List.mem_zipIdx_iff_getElem?.mp isLeft
  have second := List.mem_zipIdx_iff_getElem?.mp isRight
  exact Option.some.inj (first.symm.trans second)

/-- As many noted keys as participants, each noted under a participant's id, leave no
participant out.
-/
theorem noted_of_mem {identity : LocalIdentity} {noted : PidMap}
    (assigned : ∀ pid key, noted.lookup pid = some key →
      ∃ address, (address, pid) ∈ buildPidAssignment identity)
    (counted : noted.entries.length = (buildPidAssignment identity).length)
    {entry : String × Nat} (member : entry ∈ buildPidAssignment identity)
    : ∃ key, noted.lookup entry.2 = some key := by
  have keysNodup : (noted.entries.map Sigma.fst).Nodup := noted.nodupKeys
  have pidsNodup : ((buildPidAssignment identity).map Prod.snd).Nodup := by
    rw [buildPidAssignment, List.zipIdx_map_snd]
    exact List.nodup_range'
  have inside : (noted.entries.map Sigma.fst).toFinset
      ⊆ ((buildPidAssignment identity).map Prod.snd).toFinset := by
    intro pid isKey
    have held : pid ∈ noted := List.mem_toFinset.mp isKey
    obtain ⟨key, found⟩ := Option.isSome_iff_exists.mp (AList.lookup_isSome.mpr held)
    obtain ⟨address, isAssigned⟩ := assigned pid key found
    exact List.mem_toFinset.mpr (List.mem_map_of_mem isAssigned)
  have size : ((buildPidAssignment identity).map Prod.snd).toFinset.card
      ≤ (noted.entries.map Sigma.fst).toFinset.card := by
    rw [List.toFinset_card_of_nodup keysNodup, List.toFinset_card_of_nodup pidsNodup,
      List.length_map, List.length_map, counted]
  have same := Finset.eq_of_subset_of_card_le inside size
  have isKey : entry.2 ∈ (noted.entries.map Sigma.fst).toFinset := by
    rw [same]
    exact List.mem_toFinset.mpr (List.mem_map_of_mem member)
  have held : entry.2 ∈ noted := List.mem_toFinset.mp isKey
  exact Option.isSome_iff_exists.mp (AList.lookup_isSome.mpr held)

section Requests

variable (cluster : Cluster) (leader ceremonyId : String) (own : Nat)
  (finalized : List (String × String × String))

/-- Every address of the assignment has obtained the key. -/
def KeyAgreed (key : String) : Prop :=
  ∀ entry ∈ assignmentOf cluster leader, (entry.1, ceremonyId, key) ∈ finalized

/-- A request counts with the size of the assignment, its suspended handler works under the
leader's own id, and an answer of success is justified.
-/
def DriverKept : Driver → Prop
  | .sending _ _ n _ _ task =>
      n = (assignmentOf cluster leader).length ∧ TaskKept ceremonyId own task
  | .driving _ n _ => n = (assignmentOf cluster leader).length
  | .responded response => response.ceremonyId = ceremonyId → response.status = .success →
      ∃ key, response.groupPubkey = some key
        ∧ KeyAgreed cluster leader ceremonyId finalized key
  | _ => True

/-- What the leader keeps. -/
structure LeaderKept (node : Node) : Prop where
  identity : node.identity = cluster.identity leader
  active : ActiveKept ceremonyId own (Acknowledged cluster leader ceremonyId finalized)
    node.active
  follower : ∀ task, node.follower = some task → TaskKept ceremonyId own task
  drivers : ∀ request, DriverKept cluster leader ceremonyId own finalized (node.drivers request)

/-- A piece of a request keeps it. -/
structure PieceKept (piece : Driver × Effect) : Prop where
  driver : DriverKept cluster leader ceremonyId own finalized piece.1
  active : ActiveKept ceremonyId own (Acknowledged cluster leader ceremonyId finalized)
    piece.2.active

end Requests

section RequestLemmas

variable {cluster : Cluster} {leader ceremonyId : String} {own : Nat}
  {finalized more : List (String × String × String)} {node : Node}

theorem Acknowledged.mono (grows : finalized ⊆ more) (pid : Nat) (key : String)
    (acknowledged : Acknowledged cluster leader ceremonyId finalized pid key)
    : Acknowledged cluster leader ceremonyId more pid key := by
  obtain ⟨address, assigned, obtained⟩ := acknowledged
  exact ⟨address, assigned, grows obtained⟩

theorem DriverKept.mono (grows : finalized ⊆ more) {driver : Driver}
    (kept : DriverKept cluster leader ceremonyId own finalized driver)
    : DriverKept cluster leader ceremonyId own more driver := by
  cases driver with
  | responded response =>
      intro same success
      obtain ⟨key, isKey, agreed⟩ := kept same success
      exact ⟨key, isKey, fun entry member => grows (agreed entry member)⟩
  | idle => trivial
  | sending => exact kept
  | driving => exact kept
  | refused => trivial

theorem LeaderKept.mono (grows : finalized ⊆ more)
    (kept : LeaderKept cluster leader ceremonyId own finalized node)
    : LeaderKept cluster leader ceremonyId own more node where
  identity := kept.identity
  active := kept.active.mono (Acknowledged.mono grows)
  follower := kept.follower
  drivers := fun request => (kept.drivers request).mono grows

/-- A piece of the follower loop keeps what the leader keeps. -/
theorem LeaderKept.follow (kept : LeaderKept cluster leader ceremonyId own finalized node)
    {effect : Effect}
    (effectKept : EffectKept ceremonyId own (Acknowledged cluster leader ceremonyId finalized)
      effect)
    : LeaderKept cluster leader ceremonyId own finalized (node.follow effect).1 := by
  refine ⟨?_, ?_, fun task isTask => ?_, fun request => ?_⟩
  · rw [follow_identity]
    exact kept.identity
  · rw [follow_active]
    exact effectKept.active
  · have progress := effectKept.progress
    rw [follow_follower node effect isTask] at progress
    exact progress
  · rw [follow_drivers]
    exact kept.drivers request

/-- A piece of a request keeps what the leader keeps. -/
theorem LeaderKept.drive (kept : LeaderKept cluster leader ceremonyId own finalized node)
    (request : Nat) {piece : Driver × Effect}
    (pieceKept : PieceKept cluster leader ceremonyId own finalized piece)
    : LeaderKept cluster leader ceremonyId own finalized (node.drive request piece).1 := by
  refine ⟨kept.identity, pieceKept.active, kept.follower, fun other => ?_⟩
  show DriverKept _ _ _ _ _ (Function.update node.drivers request piece.1 other)
  by_cases same : other = request
  · rw [same, Function.update_self]
    exact pieceKept.driver
  · rw [Function.update_of_ne same]
    exact kept.drivers other

theorem selfHandled_kept {initial : Bool} {id : String} {n : Nat} {sent : Sent}
    {message : DkgStepMessage} {effect : Effect}
    (counted : n = (assignmentOf cluster leader).length)
    (effectKept : EffectKept ceremonyId own (Acknowledged cluster leader ceremonyId finalized)
      effect)
    : PieceKept cluster leader ceremonyId own finalized
      (selfHandled initial id n sent message effect) := by
  have progress := effectKept.progress
  unfold selfHandled
  split
  case h_1 task suspended =>
    rw [suspended] at progress
    exact ⟨⟨counted, progress⟩, effectKept.active⟩
  case h_2 => exact ⟨counted, effectKept.active⟩
  case h_3 =>
    split
    · exact ⟨trivial, effectKept.active⟩
    · exact ⟨counted, effectKept.active⟩

/-- The answer of success is justified by the keys that are noted. -/
theorem concluded_kept {ceremony : ActiveCeremony} {id : String}
    (keys : id = ceremonyId → ∀ pid key, ceremony.finalizeDone.lookup pid = some key →
      Acknowledged cluster leader ceremonyId finalized pid key)
    (counted : ceremony.finalizeDone.entries.length = (assignmentOf cluster leader).length)
    : DriverKept cluster leader ceremonyId own finalized
      (.responded (concluded id (ceremony.finalizeDone.entries.map Sigma.snd))) := by
  intro same success
  have isId : (concluded id (ceremony.finalizeDone.entries.map Sigma.snd)).ceremonyId = id := by
    unfold concluded
    dsimp only
    split <;> rfl
  have acknowledged := keys (isId.symm.trans same)
  unfold concluded at success ⊢
  dsimp only at success ⊢
  split at success
  case isFalse => cases success
  case isTrue consistent =>
    rw [if_pos consistent]
    refine ⟨_, rfl, fun entry member => ?_⟩
    obtain ⟨key, noted⟩ := noted_of_mem
      (fun pid key noted => (acknowledged pid key noted).imp (fun _ found => found.1)) counted
      member
    have isValue : key ∈ ceremony.finalizeDone.entries.map Sigma.snd :=
      List.mem_map_of_mem (AList.mem_lookup_iff.mp noted)
    obtain ⟨address, assigned, obtained⟩ := acknowledged entry.2 key noted
    have isCanonical := of_decide_eq_true (List.all_eq_true.mp consistent key isValue)
    rw [← isCanonical, address_unique member assigned]
    exact obtained

theorem handleStartDkg_kept (kept : LeaderKept cluster leader ceremonyId own finalized node)
    (isOwn : pidOf (assignmentOf cluster leader) leader = some own) (id : String)
    (threshold : Nat)
    : PieceKept cluster leader ceremonyId own finalized
      (handleStartDkg node.identity node.active id threshold) := by
  unfold handleStartDkg
  dsimp only
  split
  case h_1 => exact ⟨trivial, kept.active⟩
  case h_2 =>
    rw [kept.identity]
    refine selfHandled_kept rfl (handleMessage_kept kept.active ?_ ?_)
    · intro pid key other
      cases other
    · intro _ _ _ pid isStart isPid
      cases isStart
      rw [cluster.named leader] at isPid
      exact Option.some.inj (isPid.symm.trans isOwn)

/-- The messages a leader sends itself later are no acknowledgements and no starts of a
ceremony.
-/
theorem handleMessage_kept_later {identity : LocalIdentity} {message : DkgStepMessage}
    (kept : LeaderKept cluster leader ceremonyId own finalized node)
    (noKey : ∀ pid key, message ≠ .finalizeDone ceremonyId pid key)
    (noStart : ∀ threshold n pidAssignment,
      message ≠ .round1Start ceremonyId threshold n pidAssignment)
    : EffectKept ceremonyId own (Acknowledged cluster leader ceremonyId finalized)
      (handleMessage identity node.active message) :=
  handleMessage_kept kept.active (fun pid key same => absurd same (noKey pid key))
    (fun threshold n pidAssignment _ same => absurd same (noStart threshold n pidAssignment))

theorem driveCeremony_kept (kept : LeaderKept cluster leader ceremonyId own finalized node)
    {id : String} {n : Nat} (counted : n = (assignmentOf cluster leader).length) (sent : Sent)
    (expired : Bool)
    : PieceKept cluster leader ceremonyId own finalized
      (driveCeremony node.identity node.active id n sent expired) := by
  unfold driveCeremony
  split
  case isTrue => exact ⟨fun _ success => (by cases success), kept.active⟩
  case isFalse =>
    split
    case h_1 => exact ⟨counted, kept.active⟩
    case h_2 ceremony found =>
      split
      case isTrue full =>
        refine ⟨concluded_kept (fun same => ?_) (full.trans counted), activeKept_none⟩
        exact (kept.active.of_ofCeremony found same).2
      case isFalse =>
        split
        case isTrue =>
          exact selfHandled_kept counted
            (handleMessage_kept_later kept (by simp) (by simp))
        case isFalse =>
          split
          case isTrue =>
            exact selfHandled_kept counted
              (handleMessage_kept_later kept (by simp) (by simp))
          case isFalse =>
            split
            case isTrue =>
              exact selfHandled_kept counted
                (handleMessage_kept_later kept (by simp) (by simp))
            case isFalse => exact ⟨counted, kept.active⟩

/-- A message that the leader's follower takes. -/
theorem LeaderKept.receive (kept : LeaderKept cluster leader ceremonyId own finalized node)
    (isOwn : pidOf (assignmentOf cluster leader) leader = some own) {message : DkgStepMessage}
    (finalizeDone : ∀ pid key, message = .finalizeDone ceremonyId pid key →
      Acknowledged cluster leader ceremonyId finalized pid key)
    (round1Start : ∀ threshold n pidAssignment pid,
      message = .round1Start ceremonyId threshold n pidAssignment →
        pidOf pidAssignment leader = some pid →
          pidOf (assignmentOf cluster leader) leader = some pid)
    : LeaderKept cluster leader ceremonyId own finalized (node.step (.receive message)).1 := by
  unfold Node.step
  dsimp only
  split
  case h_1 => exact kept
  case h_2 =>
    refine kept.follow (handleMessage_kept kept.active finalizeDone ?_)
    intro threshold n pidAssignment pid same isPid
    rw [kept.identity, cluster.named leader] at isPid
    have known := round1Start threshold n pidAssignment pid same isPid
    exact Option.some.inj (known.symm.trans isOwn)

/-- A suspended handler of the leader's follower goes on. What `dkg_finalize` returns is
among the keys obtained.
-/
theorem LeaderKept.resume (kept : LeaderKept cluster leader ceremonyId own finalized node)
    {answer : Resume}
    (obtained : ∀ key, (ceremonyId, key) ∈ (node.step (.resume answer)).2.finalized →
      Acknowledged cluster leader ceremonyId finalized own key)
    : LeaderKept cluster leader ceremonyId own finalized (node.step (.resume answer)).1 := by
  unfold Node.step at obtained ⊢
  dsimp only at obtained ⊢
  split
  case h_1 => exact kept
  case h_2 effect resumed =>
    rw [resumed] at obtained
    dsimp only at obtained
    rw [follow_finalized] at obtained
    obtain ⟨task, isTask, resumed⟩ := Option.bind_eq_some_iff.mp resumed
    exact kept.follow (resumeTask_kept kept.active (kept.follower task isTask) resumed obtained)

theorem LeaderKept.imported (kept : LeaderKept cluster leader ceremonyId own finalized node)
    (result : Except String Unit)
    : LeaderKept cluster leader ceremonyId own finalized (node.step (.imported result)).1 := by
  unfold Node.step
  dsimp only
  split
  case h_1 => exact kept
  case h_2 => exact ⟨kept.identity, kept.active, kept.follower, kept.drivers⟩
  case h_3 waiting _ =>
    refine ⟨kept.identity, ?_, kept.follower, kept.drivers⟩
    cases waiting with
    | bootstrap share vss =>
        exact kept.active.map (fun _ => rfl) (fun _ => rfl) (fun _ => rfl)
    | rotation share => exact kept.active

/-- A suspended handler that a request waits for goes on. -/
theorem LeaderKept.resumeDriver
    (kept : LeaderKept cluster leader ceremonyId own finalized node) {request : Nat}
    {answer : Resume}
    (obtained
      : ∀ key, (ceremonyId, key) ∈ (node.step (.resumeDriver request answer)).2.finalized →
        Acknowledged cluster leader ceremonyId finalized own key)
    : LeaderKept cluster leader ceremonyId own finalized
      (node.step (.resumeDriver request answer)).1 := by
  unfold Node.step at obtained ⊢
  dsimp only at obtained ⊢
  have driverKept := kept.drivers request
  split
  case h_1 initial id n sent message task isSending =>
    rw [isSending] at driverKept obtained
    dsimp only at obtained
    split
    case h_1 => exact kept
    case h_2 effect resumed =>
      rw [resumed] at obtained
      dsimp only [Node.drive] at obtained
      rw [selfHandled_finalized] at obtained
      refine kept.drive request (selfHandled_kept driverKept.1 ?_)
      exact resumeTask_kept kept.active driverKept.2 resumed obtained
  case h_2 => exact kept

/-- One event at the leader. -/
theorem LeaderKept.step (kept : LeaderKept cluster leader ceremonyId own finalized node)
    (isOwn : pidOf (assignmentOf cluster leader) leader = some own) {event : NodeEvent}
    (finalizeDone : ∀ pid key, event = .receive (.finalizeDone ceremonyId pid key) →
      Acknowledged cluster leader ceremonyId finalized pid key)
    (round1Start : ∀ threshold n pidAssignment pid,
      event = .receive (.round1Start ceremonyId threshold n pidAssignment) →
        pidOf pidAssignment leader = some pid →
          pidOf (assignmentOf cluster leader) leader = some pid)
    (obtained : ∀ key, (ceremonyId, key) ∈ (node.step event).2.finalized →
      Acknowledged cluster leader ceremonyId finalized own key)
    : LeaderKept cluster leader ceremonyId own finalized (node.step event).1 := by
  cases event with
  | receive message =>
      refine kept.receive isOwn (fun pid key same => ?_) (fun threshold n pids pid same => ?_)
      · exact finalizeDone pid key (same ▸ rfl)
      · exact round1Start threshold n pids pid (same ▸ rfl)
  | resume answer => exact kept.resume obtained
  | receiveShare share =>
      unfold Node.step
      dsimp only
      split
      · exact kept
      · exact ⟨kept.identity, kept.active, kept.follower, kept.drivers⟩
  | imported result => exact kept.imported result
  | start request id threshold =>
      unfold Node.step
      dsimp only
      split
      · exact kept.drive request (handleStartDkg_kept kept isOwn id threshold)
      · exact kept
  | resumeDriver request answer => exact kept.resumeDriver obtained
  | tick request expired =>
      unfold Node.step
      dsimp only
      have driverKept := kept.drivers request
      split
      case h_1 id n sent isDriving =>
        rw [isDriving] at driverKept
        exact kept.drive request (driveCeremony_kept kept driverKept sent expired)
      case h_2 => exact kept

end RequestLemmas

-----------------------------------------------------------------------------------------
-- Runs
-----------------------------------------------------------------------------------------

theorem mem_assignmentOf_self (cluster : Cluster) (leader : String)
    : ∃ own, pidOf (assignmentOf cluster leader) leader = some own
      ∧ (leader, own) ∈ assignmentOf cluster leader := by
  have named := cluster.named leader
  have listed : leader ∈ (assignmentOf cluster leader).map Prod.fst := by
    rw [assignmentOf, buildPidAssignment, List.zipIdx_map_fst, List.mem_insertionSort, named]
    simp
  obtain ⟨entry, member, isLeader⟩ := List.mem_map.mp listed
  have found : ((assignmentOf cluster leader).find? (fun entry => entry.1 = leader)).isSome := by
    rw [List.find?_isSome]
    exact ⟨entry, member, by simp [isLeader]⟩
  obtain ⟨first, isFirst⟩ := Option.isSome_iff_exists.mp found
  have matching := List.find?_some isFirst
  have sameAddress : first.1 = leader := by simpa using matching
  have isMember : (first.1, first.2) ∈ assignmentOf cluster leader :=
    List.mem_of_find?_eq_some isFirst
  rw [sameAddress] at isMember
  exact ⟨first.2, by rw [pidOf, isFirst]; rfl, isMember⟩

section Runs

variable {cluster : Cluster} {leader ceremonyId : String}

/-- What the leader keeps, in the cluster. -/
def World.Kept (cluster : Cluster) (leader ceremonyId : String) (own : Nat) (world : World)
    : Prop :=
  LeaderKept cluster leader ceremonyId own world.finalized (world.nodes leader)

/-- A genuine event keeps what the leader keeps. -/
theorem World.step_kept {own : Nat} (isOwn : pidOf (assignmentOf cluster leader) leader = some own)
    (assigned : (leader, own) ∈ assignmentOf cluster leader) (world : World)
    (event : String × NodeEvent) (kept : world.Kept cluster leader ceremonyId own)
    (genuine : Genuine cluster leader ceremonyId world event)
    : (world.step event).Kept cluster leader ceremonyId own := by
  have grows : world.finalized ⊆ (world.step event).finalized :=
    List.subset_append_left _ _
  by_cases here : event.1 = leader
  · have now : (world.step event).nodes leader = ((world.nodes leader).step event.2).1 := by
      show Function.update world.nodes event.1 _ leader = _
      rw [here, Function.update_self]
    rw [World.Kept, now]
    refine (LeaderKept.mono grows kept).step isOwn ?_ ?_ ?_
    · intro pid key isKey
      exact (genuine.finalizeDone pid key (Prod.ext here isKey)).mono grows
    · intro threshold n pidAssignment pid isStart isPid
      exact genuine.round1Start threshold n pidAssignment pid (Prod.ext here isStart) isPid
    · intro key returned
      refine ⟨leader, assigned, List.mem_append_right _ ?_⟩
      rw [here]
      exact List.mem_map_of_mem returned
  · have unchanged : (world.step event).nodes leader = world.nodes leader :=
      Function.update_of_ne (Ne.symm here) _ _
    rw [World.Kept, unchanged]
    exact LeaderKept.mono grows kept

/-- In every run in which what reaches the leader about the ceremony is genuine, its success
means that every participant has obtained the key.
-/
theorem success_means_agreement (events : List (String × NodeEvent))
    (genuine : Along World.step (Genuine cluster leader ceremonyId) (World.fresh cluster) events)
    : SuccessMeansAgreement cluster leader ceremonyId
      (events.foldl World.step (World.fresh cluster)) := by
  obtain ⟨own, isOwn, assigned⟩ := mem_assignmentOf_self cluster leader
  have initial : (World.fresh cluster).Kept cluster leader ceremonyId own :=
    ⟨rfl, activeKept_none, fun _ none => (by cases none), fun _ => trivial⟩
  have kept := genuine.invariant (World.step_kept isOwn assigned) initial
  intro request response isResponse same success
  have answered := kept.drivers request
  cases isDriver : ((events.foldl World.step (World.fresh cluster)).nodes leader).drivers request
    with
  | responded given =>
      rw [isDriver] at answered isResponse
      cases isResponse
      exact answered same success
  | idle | sending | driving | refused =>
      rw [isDriver] at isResponse
      cases isResponse

end Runs

/-- The cluster of some addresses, where everyone knows everyone's key. -/
def clusterOf (addresses : List String) (distinct : addresses.Nodup) : Cluster where
  identity := fun address => {
    xrplAddress := address,
    ecdhPubkey := "ecdh-" ++ address,
    peers := (addresses.filter (fun peer => peer ≠ address)).map
      (fun peer => (peer, "ecdh-" ++ peer)),
    distinct := by simpa [Function.comp_def] using distinct.filter _,
    notSelf := by simp
  }
  named := fun _ => rfl

def pair : Cluster := clusterOf ["rone", "rtwo"] (by decide)

/-- A ceremony of two: both finalize, and the leader hears of it. -/
def honestRun : List (String × NodeEvent) := [
  ("rone", .start 0 "c" 2),
  ("rone", .resumeDriver 0 (.generated (.ok "vA"))),
  ("rtwo", .receive (.round1Start "c" 2 2 [("rone", 0), ("rtwo", 1)])),
  ("rtwo", .resume (.generated (.ok "vB"))),
  ("rone", .receive (.finalizeStart "c")),
  ("rone", .resume (.finalized (.ok "K"))),
  ("rtwo", .receive (.finalizeStart "c")),
  ("rtwo", .resume (.finalized (.ok "K"))),
  ("rone", .receive (.finalizeDone "c" 1 "K")),
  ("rone", .tick 0 false)
]

theorem genuine_of_other {cluster : Cluster} {leader ceremonyId : String} {world : World}
    {event : String × NodeEvent}
    (other : event.1 ≠ leader ∨ ∀ message, event.2 ≠ .receive message)
    : Genuine cluster leader ceremonyId world event := by
  constructor
  · intro pid key same
    subst same
    exact other.elim (absurd rfl) (fun noMessage => absurd rfl (noMessage _))
  · intro _ _ _ _ same
    subst same
    exact other.elim (absurd rfl) (fun noMessage => absurd rfl (noMessage _))

/-- The honest ceremony succeeds with the key that both have obtained. -/
theorem success_means_agreement_honest
    : (((honestRun.foldl World.step (World.fresh pair)).nodes "rone").drivers 0).response
        = some ⟨"c", .success, some "K", none⟩
      ∧ SuccessMeansAgreement pair "rone" "c" (honestRun.foldl World.step (World.fresh pair)) := by
  refine ⟨by decide +kernel, success_means_agreement honestRun ?_⟩
  refine ⟨genuine_of_other (.inr (by simp)), genuine_of_other (.inr (by simp)),
    genuine_of_other (.inl (by decide)), genuine_of_other (.inl (by decide)), ⟨?_, ?_⟩,
    genuine_of_other (.inr (by simp)), genuine_of_other (.inl (by decide)),
    genuine_of_other (.inl (by decide)), ⟨?_, ?_⟩, genuine_of_other (.inr (by simp)), trivial⟩
  · simp
  · simp
  · intro pid key same
    cases same
    exact ⟨"rtwo", by decide +kernel, by decide +kernel⟩
  · simp

/-- Two acknowledgements under ids that nobody has. -/
def forgedRun : List (String × NodeEvent) := [
  ("rone", .start 0 "c" 2),
  ("rone", .resumeDriver 0 (.generated (.ok "vA"))),
  ("rone", .receive (.finalizeDone "c" 7 "K")),
  ("rone", .receive (.finalizeDone "c" 8 "K")),
  ("rone", .tick 0 false)
]

/-- The leader reports a success although nobody has finalized. -/
theorem forged_success
    : (((forgedRun.foldl World.step (World.fresh pair)).nodes "rone").drivers 0).response
        = some ⟨"c", .success, some "K", none⟩
      ∧ ¬ SuccessMeansAgreement pair "rone" "c"
        (forgedRun.foldl World.step (World.fresh pair)) := by
  have answered
      : (((forgedRun.foldl World.step (World.fresh pair)).nodes "rone").drivers 0).response
      = some ⟨"c", .success, some "K", none⟩ := by
    decide +kernel
  refine ⟨answered, fun agreement => ?_⟩
  obtain ⟨key, _, agreed⟩ := agreement 0 _ answered rfl rfl
  obtain ⟨own, _, assigned⟩ := mem_assignmentOf_self pair "rone"
  have nobody : (forgedRun.foldl World.step (World.fresh pair)).finalized = [] := by
    decide +kernel
  have obtained := agreed _ assigned
  rw [nobody] at obtained
  cases obtained

end PerpDex.Dkg
