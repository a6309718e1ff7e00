import DurableKV.Node

/-!
# Requests while the log is held

A node is shared by its clients, and a replica applies one entry at a time. So a request may find
that another submission holds the log, for longer than the service lets it wait. `Contended` is
consensus with a replica that may be held in this way, and `Node.handleWhile` answers one request
line then. Only what is submitted has to wait for the log; everything else is done as usual.
-/

namespace DurableKV

/-- A replica of which another submission may hold the log. -/
structure Contended where
  /-- The replica. -/
  replica : Replica
  /-- Does another submission hold the log for longer than submitters wait? -/
  held : Bool

instance : Consensus Contended where
  submit c entry timeout :=
    let (answer, replica) := c.replica.submit entry timeout c.held
    (answer, { c with replica })
  isLeader c := c.replica.isLeader
  leaderAddress c := c.replica.leaderAddress
  addVoter c nodeId address :=
    let (answer, replica) := c.replica.addVoter nodeId address
    (answer, { c with replica })
  store c := c.replica.store

namespace Service

/-- A service over the same replica, of which another submission may hold the log. -/
def contend (s : Service Replica) (held : Bool) : Service Contended :=
  { s with consensus := ⟨s.consensus, held⟩ }

/-- A service over the replica itself again. -/
def release (s : Service Contended) : Service Replica := { s with consensus := s.consensus.replica }

end Service

namespace Node

/-- The reply to an answer of the service that was given while the log may have been held. -/
def answerWhile {α : Type} (n : Node) (a : Service.Answer Contended α) (reply : α → Reply) :
    Except ServiceError Reply × Node :=
  n.answer (a.1, a.2.release) reply

/-- Do what a request asks, while another submission may hold the log. -/
def executeWhile (n : Node) (held : Bool) : Request → Except ServiceError Reply × Node
  | .set key value => n.answerWhile ((n.service.contend held).set key value) (keySet key)
  | .delete key => n.answerWhile ((n.service.contend held).delete key) fun () => keyDeleted key
  | .txCommit id => n.answerWhile ((n.service.contend held).commit id) (committed id)
  | request => n.execute request

/-- Answer one request line, while another submission may hold the log. -/
def handleWhile (n : Node) (held : Bool) (line : Bytes) : Except ServiceError Reply × Node :=
  match Request.read line with
  | .error cause => (.ok (.error "HELIOS_INVALID_REQUEST" cause.message), n)
  | .ok request =>
    match n.executeWhile held request with
    | (.ok reply, n) => (.ok reply, n)
    | (.error e, n) => if e.isFatal then (.error e, n) else (.ok (.error e.code e.message), n)

end Node

end DurableKV
