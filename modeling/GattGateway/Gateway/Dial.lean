import GattGateway.Gateway.Segment

/-!
# Opening a session

The peer is connected and its characteristics are discovered. If any of it fails the connection is
closed again and the radio switched off; faults of closing and of switching off change nothing.
-/
namespace GattGateway.Dial

inductive Stage
  | poweringUp (peer : Peer)
  | calling (peer : Peer) (deadline : Instant)
  | discovering (connection : Connection)
  | closing (connection : Connection) (fault : RadioFault)
  | poweringDown (fault : Fault)
  deriving DecidableEq, Repr

abbrev Result := Except Fault (List Descriptor)

namespace Stage

def call? : Stage → Option Call
  | .poweringUp _ => some .powerOn
  | .calling peer _ => some (.dial peer)
  | .discovering connection => some (.discover connection)
  | .closing connection _ => some (.hangUp connection)
  | .poweringDown _ => some .powerOff

def deadline? : Stage → Option Instant
  | .calling _ deadline => some deadline
  | _ => none

end Stage

def fail (g : Gateway) (e : Fault) : Segment Stage Result :=
  let g := { g with peerLink := .disconnected }
  if g.powered then .wait g (.poweringDown e) else .finish g (.error e)

def ring (m : Moment) (g : Gateway) (peer : Peer) : Segment Stage Result :=
  .wait g (.calling peer (m.now + m.timing.connectTimeout))

def begin (m : Moment) (g : Gateway) (peer : Peer) : Segment Stage Result :=
  if g.radioInUse then .finish g (.error .busy)
  else
    let g := { g with peerLink := .connecting }
    if g.powered then ring m g peer else .wait g (.poweringUp peer)

def resume (m : Moment) (g : Gateway) : Stage → Wake → Segment Stage Result
  | .poweringUp peer, .reply r =>
    match r.radio with
    | .ok _ => ring m { g with powered := true } peer
    | .error e => fail g (.radio e)
  | .calling _ _, .reply r =>
    match r.dialled with
    | .ok connection => .wait g (.discovering connection)
    | .error e => fail g (.radio e)
  | .calling _ _, .timeout => fail g .connectTimeout
  | .discovering connection, .reply r =>
    match r.discovered with
    | .ok cs =>
      .finish { g with session := some (.ofDiscovery connection cs), peerLink := .connected }
        (.ok (cs.map (·.descriptor)))
    | .error e => .wait g (.closing connection e)
  | .closing _ e, .reply _ => fail g (.radio e)
  | .poweringDown e, .reply r =>
    match r.radio with
    | .ok _ => .finish { g with powered := false } (.error e)
    | .error _ => .finish g (.error e)
  | stage, _ => .wait g stage

end GattGateway.Dial
