import Mathlib.Data.List.AList
import Mathlib.Data.List.Sort

/-!
The relay hub (internal/relay): rooms of device and client connections, one room a user.

A connection is identified by the pointer to its `wsConn`, here `ref`.  What a critical section
of the hub enqueues comes back as a list of deliveries; so does what a call enqueues after it
has released the lock, since other calls may come in between.
-/

namespace YunhouUsers.Relay

inductive Role where
  | device
  | client
deriving DecidableEq

inductive CloseReason where
  | auth
  | entitlement
  | replaced
  | shutdown
  | slowConsumer
  | protocol
  | idleTimeout
deriving DecidableEq

structure HelloFrame where
  role : Role
  deviceId : String := ""
  deviceName : String := ""
  appVersion : String := ""
  clientId : String := ""
deriving DecidableEq

structure DeviceInfo where
  deviceId : String
  deviceName : String
  appVersion : String
  connectedAt : Int
deriving DecidableEq

structure Options where
  outboundBuffer : Nat := 256
  maxDevicesPerUser : Nat := 10
  maxClientsPerUser : Nat := 20
  maxIdLen : Nat := 128
deriving DecidableEq

def presentWithin (maxIdLen : Nat) (text : String) : Bool :=
  text ≠ "" && text.utf8ByteSize ≤ maxIdLen

def validHelloShape (h : HelloFrame) (maxIdLen : Nat) : Bool :=
  match h.role with
  | .device => presentWithin maxIdLen h.deviceId && presentWithin maxIdLen h.deviceName &&
      presentWithin maxIdLen h.appVersion
  | .client => presentWithin maxIdLen h.clientId

def helloId (h : HelloFrame) : String :=
  match h.role with
  | .device => h.deviceId
  | .client => h.clientId

/-- A connection after its ticket was verified: `userId` is the subject of the ticket. -/
structure Conn where
  ref : Nat
  userId : String
  hello : HelloFrame
  connectedAt : Int := 0
deriving DecidableEq

namespace Conn

variable (c : Conn)

def role : Role := c.hello.role

def id : String := helloId c.hello

def deviceId : String := if c.role = .device then c.id else ""

def clientId : String := if c.role = .client then c.id else ""

def deviceMeta : DeviceInfo :=
  ⟨c.hello.deviceId, c.hello.deviceName, c.hello.appVersion, c.connectedAt⟩

end Conn

structure PresenceMeta where
  deviceName : String
  appVersion : String
deriving DecidableEq

def DeviceInfo.presence (m : DeviceInfo) : PresenceMeta := ⟨m.deviceName, m.appVersion⟩

inductive Frame where
  | presence (deviceId : String) (online : Bool) (info : Option PresenceMeta)
  | app (fromDeviceId fromClientId targetDeviceId : Option String) (payload : String)
  | undeliverable (targetDeviceId : String)
  | closed (reason : CloseReason)
deriving DecidableEq

def presenceFrame (deviceId : String) (online : Bool) (info : Option DeviceInfo) : Frame :=
  .presence deviceId online (if online then info.map DeviceInfo.presence else none)

def appFromDeviceFrame (deviceId payload : String) : Frame := .app (some deviceId) none none payload

def appFromDeviceDirectedFrame (fromDeviceId targetDeviceId payload : String) : Frame :=
  .app (some fromDeviceId) none (some targetDeviceId) payload

def appFromClientFrame (clientId payload : String) : Frame := .app none (some clientId) none payload

abbrev Delivery := Conn × Frame

abbrev StringMap (V : Type) := AList (fun _ : String => V)

namespace StringMap

variable {V : Type}

def get? (m : StringMap V) (k : String) : Option V := m.lookup k

def values (m : StringMap V) : List V := m.entries.map (fun e => e.2)

def len (m : StringMap V) : Nat := m.keys.length

end StringMap

structure Room where
  devices : StringMap Conn := ∅
  clients : StringMap Conn := ∅

structure Hub where
  opts : Options
  shutdown : Bool := false
  rooms : StringMap Room := ∅

/-- A map iteration has no order of its own; the ids of a room are distinct. -/
def sortById (devices : List DeviceInfo) : List DeviceInfo :=
  devices.insertionSort (fun a b => a.deviceId ≤ b.deviceId)

/-- What `Register` enqueues for a new device `c` that is already in the room. -/
def Room.announce (r : Room) (c : Conn) : List Delivery :=
  let frame := presenceFrame c.deviceId true (some c.deviceMeta)
  let others := r.devices.values.filter (fun d => d ≠ c)
  r.clients.values.map (fun cl => (cl, frame)) ++ others.map (fun d => (d, frame)) ++
    (sortById (others.map Conn.deviceMeta)).map
      (fun m => (c, presenceFrame m.deviceId true (some m)))

variable (h : Hub)

/-- A refused connection may leave an empty room behind. -/
def Hub.register (c : Conn) : Hub × Except CloseReason (Option Conn × List Delivery) :=
  if h.shutdown then (h, .error .shutdown)
  else
    let r := (h.rooms.get? c.userId).getD {}
    match c.role with
    | .device =>
      if r.devices.get? c.deviceId = none ∧ h.opts.maxDevicesPerUser ≤ r.devices.len then
        ({ h with rooms := h.rooms.insert c.userId r }, .error .protocol)
      else
        let joined := { r with devices := r.devices.insert c.deviceId c }
        ({ h with rooms := h.rooms.insert c.userId joined },
          .ok (r.devices.get? c.deviceId, joined.announce c))
    | .client =>
      if r.clients.get? c.clientId = none ∧ h.opts.maxClientsPerUser ≤ r.clients.len then
        ({ h with rooms := h.rooms.insert c.userId r }, .error .protocol)
      else
        let joined := { r with clients := r.clients.insert c.clientId c }
        ({ h with rooms := h.rooms.insert c.userId joined },
          .ok (r.clients.get? c.clientId, []))

/-- The room without `c`, if `c` is still the connection under its id. -/
def Room.remove (r : Room) (c : Conn) : Option Room :=
  match c.role with
  | .device =>
    if r.devices.get? c.deviceId = some c then
      some { r with devices := r.devices.erase c.deviceId } else none
  | .client =>
    if r.clients.get? c.clientId = some c then
      some { r with clients := r.clients.erase c.clientId } else none

/-- A replaced connection finds another one under its id and changes nothing. -/
def Hub.unregister (c : Conn) : Hub × List Delivery :=
  match h.rooms.get? c.userId with
  | none => (h, [])
  | some r =>
    let left := (r.remove c).getD r
    let offline := presenceFrame c.deviceId false none
    let deliveries :=
      if (r.remove c).isSome ∧ c.role = .device then
        (left.clients.values ++ left.devices.values).map (fun d => (d, offline))
      else []
    if left.devices.len = 0 ∧ left.clients.len = 0 then
      ({ h with rooms := h.rooms.erase c.userId }, deliveries)
    else ({ h with rooms := h.rooms.insert c.userId left }, deliveries)

def Hub.onlineDevices (userId : String) : List DeviceInfo :=
  match h.rooms.get? userId with
  | none => []
  | some r => sortById (r.devices.values.map Conn.deviceMeta)

/-- The own-target test compares connections, as the source does. -/
def Hub.routeApp (sender : Conn) (targetDeviceId payload : String) : List Delivery :=
  match sender.role with
  | .device =>
    match h.rooms.get? sender.userId with
    | none => []
    | some r =>
      if targetDeviceId ≠ "" then
        match r.devices.get? targetDeviceId with
        | none => [(sender, .undeliverable targetDeviceId)]
        | some dev =>
          if dev = sender then [(sender, .undeliverable targetDeviceId)]
          else [(dev, appFromDeviceDirectedFrame sender.deviceId targetDeviceId payload)]
      else r.clients.values.map (fun cl => (cl, appFromDeviceFrame sender.deviceId payload))
  | .client =>
    match (h.rooms.get? sender.userId).bind (fun r => r.devices.get? targetDeviceId) with
    | none => [(sender, .undeliverable targetDeviceId)]
    | some dev => [(dev, appFromClientFrame sender.clientId payload)]

/-- What `Shutdown` enqueues: every device is announced offline, then every connection closed. -/
def Hub.shutdownDeliveries : List Delivery :=
  let rooms := h.rooms.values
  rooms.flatMap (fun r => r.devices.values.flatMap (fun d =>
      (r.clients.values ++ r.devices.values.filter (fun other => other ≠ d)).map
        (fun c => (c, presenceFrame d.deviceId false none)))) ++
    rooms.flatMap (fun r => (r.devices.values ++ r.clients.values).map
      (fun c => (c, .closed .shutdown)))

/-- An app frame as it arrives: a sender may fill in any field. -/
structure WireApp where
  fromDeviceId : Option String := none
  fromClientId : Option String := none
  targetDeviceId : Option String := none
  payload : String
deriving DecidableEq

structure AppFrame where
  targetDeviceId : String
  payload : String
deriving DecidableEq

def WireApp.decode (w : WireApp) : AppFrame := ⟨w.targetDeviceId.getD "", w.payload⟩

def Hub.readApp (c : Conn) (w : WireApp) : Except CloseReason (List Delivery) :=
  let af := w.decode
  if c.role = .client ∧ af.targetDeviceId = "" then .error .protocol
  else .ok (h.routeApp c af.targetDeviceId af.payload)

/-! Connections: the phases of `run` and the outbound buffer. -/

inductive Stage where
  | opening
  | registered
  /-- `hello_ok` was written with this device table -/
  | serving (roomDevices : List DeviceInfo)
  | finished
deriving DecidableEq

structure ConnState where
  stage : Stage := .opening
  sent : List Frame := []
  buffer : List Frame := []
  closing : Option CloseReason := none
deriving DecidableEq

namespace ConnState

def queued (s : ConnState) : List Frame := s.sent ++ s.buffer

/-- The first reason stays, and a full buffer loses its oldest frame. -/
def initiateClose (capacity : Nat) (s : ConnState) (reason : CloseReason) : ConnState :=
  if s.closing.isSome then s
  else
    let buffer := if s.buffer.length < capacity then s.buffer else s.buffer.drop 1
    { s with
      closing := some reason
      buffer := if buffer.length < capacity then buffer ++ [.closed reason] else buffer }

def enqueue (capacity : Nat) (s : ConnState) (f : Frame) : ConnState :=
  if s.closing.isSome then s
  else match f with
    | .closed reason => s.initiateClose capacity reason
    | f =>
      if s.buffer.length < capacity then { s with buffer := s.buffer ++ [f] }
      else s.initiateClose capacity .slowConsumer

def write (s : ConnState) : ConnState :=
  match s.buffer with
  | [] => s
  | f :: rest => { s with sent := s.sent ++ [f], buffer := rest }

end ConnState

/-- The hub, its connections, and what calls have still to enqueue outside the lock. -/
structure System where
  hub : Hub
  conns : Conn → ConnState
  pending : List Delivery

namespace System

def deliver (s : System) (deliveries : List Delivery) : System :=
  { s with
    conns := fun c =>
      (deliveries.filter (fun d => d.1 = c)).foldl
        (fun st d => st.enqueue s.hub.opts.outboundBuffer d.2) (s.conns c) }

def setStage (s : System) (c : Conn) (stage : Stage) : System :=
  { s with conns := Function.update s.conns c { s.conns c with stage } }

def initiateClose (s : System) (c : Conn) (reason : CloseReason) : System :=
  { s with
    conns := Function.update s.conns c
      ((s.conns c).initiateClose s.hub.opts.outboundBuffer reason) }

def initial (opts : Options) : System := ⟨{ opts }, fun _ => {}, []⟩

end System

inductive Event where
  /-- a verified hello: shape check and `Register` -/
  | register (c : Conn)
  /-- `OnlineDevices` and `hello_ok` -/
  | greet (c : Conn)
  /-- the writer sends one frame -/
  | write (c : Conn)
  /-- an enqueue that a call left for after the lock -/
  | deliver (i : Nat)
  | read (c : Conn) (w : WireApp)
  /-- a close that the connection starts itself: limits, timers, bad frames -/
  | close (c : Conn) (reason : CloseReason)
  | unregister (c : Conn)
  | shutdown
deriving DecidableEq

namespace System

def register (s : System) (c : Conn) : System :=
  if validHelloShape c.hello s.hub.opts.maxIdLen then
    match s.hub.register c with
    | (hub, .error _) => { s with hub }.setStage c .finished
    | (hub, .ok (kicked, deliveries)) =>
      let closes := (kicked.filter (fun k => k ≠ c)).toList.map
        (fun k => (k, Frame.closed .replaced))
      { ({ s with hub }.setStage c .registered).deliver deliveries with
        pending := s.pending ++ closes }
  else s.setStage c .finished

def unregister (s : System) (c : Conn) : System :=
  let (hub, deliveries) := s.hub.unregister c
  ({ s with hub }.setStage c .finished).deliver deliveries

def read (s : System) (c : Conn) (w : WireApp) : System :=
  match s.hub.readApp c w with
  | .error reason => s.initiateClose c reason
  | .ok deliveries => { s with pending := s.pending ++ deliveries }

/-- One atomic step.  An event whose connection is not in the right phase does nothing. -/
def step (s : System) : Event → System
  | .register c => if (s.conns c).stage = .opening then s.register c else s
  | .greet c =>
    if (s.conns c).stage = .registered then
      s.setStage c (.serving (s.hub.onlineDevices c.userId)) else s
  | .write c =>
    match (s.conns c).stage with
    | .serving _ => { s with conns := Function.update s.conns c (s.conns c).write }
    | _ => s
  | .deliver i =>
    match s.pending[i]? with
    | some d => { s with pending := s.pending.eraseIdx i }.deliver [d]
    | none => s
  | .read c w =>
    match (s.conns c).stage with
    | .serving _ => s.read c w
    | _ => s
  | .close c reason =>
    match (s.conns c).stage with
    | .serving _ => s.initiateClose c reason
    | _ => s
  | .unregister c =>
    match (s.conns c).stage with
    | .serving _ => s.unregister c
    | _ => s
  | .shutdown =>
    { s with
      hub := { s.hub with shutdown := true }
      pending := s.pending ++ s.hub.shutdownDeliveries }

def run (opts : Options) (events : List Event) : System := events.foldl step (initial opts)

end System

end YunhouUsers.Relay
