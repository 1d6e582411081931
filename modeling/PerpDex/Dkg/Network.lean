import PerpDex.Dkg.Agreement

/-! One ceremony over a network that loses and repeats nothing and keeps the order of each
sender on each topic.
-/

namespace PerpDex.Dkg

-----------------------------------------------------------------------------------------
-- The network
-----------------------------------------------------------------------------------------

/-- All nodes, the messages under way from each sender to each recipient, oldest first, and
the step messages published so far.
-/
structure Net where
  nodes : String → Node
  stepMail : String → String → List DkgStepMessage
  shareMail : String → String → List ShareMessage
  published : List (String × DkgStepMessage)

def Net.fresh (cluster : Cluster) : Net where
  nodes := fun address => .fresh (cluster.identity address)
  stepMail := fun _ _ => []
  shareMail := fun _ _ => []
  published := []

inductive NetEvent where
  | deliver (sender recipient : String)
  | deliverShare (sender recipient : String)
  | resume (address : String) (answer : Resume)
  | imported (address : String) (result : Except String Unit)
  | start (threshold : Nat)
  | resumeDriver (answer : Resume)
  | tick (expired : Bool)

/-- Text in lower case, as far as keys in hexadecimal need it. -/
def toLowercase (text : String) : String := String.ofList (text.toList.map Char.toLower)

section Network

variable (cluster : Cluster) (leader ceremonyId : String)

/-- The participants other than a sender. -/
def Recipient (sender recipient : String) : Prop :=
  recipient ∈ (assignmentOf cluster leader).map Prod.fst ∧ recipient ≠ sender

instance (sender recipient : String) : Decidable (Recipient cluster leader sender recipient) :=
  inferInstanceAs (Decidable (_ ∧ _))

/-- An event at one node; what it publishes is under way to every other participant. -/
def Net.apply (net : Net) (address : String) (event : NodeEvent) : Net :=
  let result := (net.nodes address).step event
  {
    nodes := Function.update net.nodes address result.1,
    stepMail := fun sender recipient =>
      if sender = address ∧ Recipient cluster leader address recipient then
        net.stepMail sender recipient ++ result.2.steps
      else net.stepMail sender recipient,
    shareMail := fun sender recipient =>
      if sender = address ∧ Recipient cluster leader address recipient then
        net.shareMail sender recipient ++ result.2.shares
      else net.shareMail sender recipient,
    published := net.published ++ result.2.steps.map (fun message => (address, message))
  }

/-- The mail of one sender and recipient replaced. -/
def withMail {α : Type} (mail : String → String → List α) (sender recipient : String)
    (rest : List α) : String → String → List α :=
  fun other address =>
    if other = sender ∧ address = recipient then rest else mail other address

/-- One event of the ceremony. A node takes the next message of a sender when its task is
free; a share for somebody else is dropped on arrival.
-/
def Net.step (net : Net) : NetEvent → Net
  | .deliver sender recipient =>
      match net.stepMail sender recipient, (net.nodes recipient).follower with
      | message :: rest, none =>
          Net.apply cluster leader
            { net with stepMail := withMail net.stepMail sender recipient rest } recipient
            (.receive message)
      | _, _ => net
  | .deliverShare sender recipient =>
      match net.shareMail sender recipient, (net.nodes recipient).importer with
      | share :: rest, none =>
          let popped := { net with shareMail := withMail net.shareMail sender recipient rest }
          if toLowercase share.recipientPubkey = (net.nodes recipient).identity.ecdhPubkey then
            Net.apply cluster leader popped recipient (.receiveShare share)
          else popped
      | _, _ => net
  | .resume address answer => Net.apply cluster leader net address (.resume answer)
  | .imported address result => Net.apply cluster leader net address (.imported result)
  | .start threshold => Net.apply cluster leader net leader (.start 0 ceremonyId threshold)
  | .resumeDriver answer => Net.apply cluster leader net leader (.resumeDriver 0 answer)
  | .tick expired => Net.apply cluster leader net leader (.tick 0 expired)

/-- The network after some events. -/
def Net.run (events : List NetEvent) : Net :=
  events.foldl (Net.step cluster leader ceremonyId) (Net.fresh cluster)

/-- All participants have published `Round15Done`, and every message published so far has
been delivered and handled.
-/
structure Settled (net : Net) : Prop where
  published : ∀ entry ∈ assignmentOf cluster leader,
    (entry.1, .round15Done ceremonyId entry.2) ∈ net.published
  delivered : ∀ sender ∈ assignmentOf cluster leader, ∀ recipient ∈ assignmentOf cluster leader,
    net.stepMail sender.1 recipient.1 = [] ∧ net.shareMail sender.1 recipient.1 = []
  handled : ∀ entry ∈ assignmentOf cluster leader,
    (net.nodes entry.1).follower.isNone ∧ (net.nodes entry.1).importer.isNone

/-- Each participant has imported the share of each other one. -/
def AllImported (net : Net) : Prop :=
  ∀ entry ∈ assignmentOf cluster leader, ∀ other ∈ assignmentOf cluster leader,
    other.2 ≠ entry.2 → ∃ ceremony, (net.nodes entry.1).active = some ceremony
      ∧ other.2 ∈ ceremony.importedFromPid

end Network

end PerpDex.Dkg
