import YunhouUsers.Relay.Rooms

/-!
Where an app frame goes and whose name it carries, in every state the hub can reach.

A frame is queued by handing it to the connection's `Enqueue`; a connection that is closing
drops what it is handed.
-/

namespace YunhouUsers.Relay

def Frame.isCopy : Frame → Bool
  | .app .. => true
  | _ => false

/-- The sender fields of a copy are those of the connection it was read from. -/
def Frame.StampedBy (sender : Conn) : Frame → Prop
  | .app fromDeviceId fromClientId _ _ =>
    fromDeviceId = (if sender.role = .device then some sender.id else none) ∧
      fromClientId = (if sender.role = .client then some sender.id else none)
  | _ => True

def Hub.copies (h : Hub) (sender : Conn) (w : WireApp) : List Delivery :=
  match h.readApp sender w with
  | .ok ds => ds
  | .error _ => []

/-- Isolation, authenticity and the answer to a target, for what a frame became. -/
structure Routed (h : Hub) (sender : Conn) (target : String) (ds : List Delivery) : Prop where
  isolated : ∀ d ∈ ds, d.2.isCopy → h.member d.1.key = some d.1 ∧ d.1.userId = sender.userId
  authentic : ∀ d ∈ ds, d.2.isCopy → d.2.StampedBy sender
  answered : target ≠ "" →
    (∃ dev copy, h.member (.device, sender.userId, target) = some dev ∧ copy.isCopy ∧
      ds = [(dev, copy)]) ∨
    ds = [(sender, .undeliverable target)]
  noEcho : sender.role = .device → target ≠ "" → target = sender.deviceId →
    ∀ d ∈ ds, ¬ d.2.isCopy

/-- A device names a target while its room is gone, or names its own id while another
connection holds it.  Only a replaced connection can do either. -/
def Misrouted (h : Hub) (sender : Conn) (target : String) : Prop :=
  sender.role = .device ∧ target ≠ "" ∧
    (h.rooms.get? sender.userId = none ∨
      target = sender.deviceId ∧
        ∃ dev, dev ≠ sender ∧ h.member (.device, sender.userId, target) = some dev)

inductive Route (h : Hub) (sender : Conn) (target : String) : List Delivery → Prop where
  | refused (client : sender.role = .client) (absent : target = "") : Route h sender target []
  | roomGone (device : sender.role = .device) (gone : h.rooms.get? sender.userId = none) :
      Route h sender target []
  | broadcast {r : Room} {copy : Frame} (device : sender.role = .device) (absent : target = "")
      (room : h.rooms.get? sender.userId = some r) (stamped : copy.StampedBy sender) :
      Route h sender target (r.clients.values.map (fun cl => (cl, copy)))
  | undeliverable (named : target ≠ "")
      (unheld : ∀ dev, h.member (.device, sender.userId, target) = some dev → dev = sender)
      (there : sender.role = .device → h.rooms.get? sender.userId ≠ none) :
      Route h sender target [(sender, .undeliverable target)]
  | directed {dev : Conn} {copy : Frame} (named : target ≠ "")
      (held : h.member (.device, sender.userId, target) = some dev) (other : dev ≠ sender)
      (isCopy : copy.isCopy) (stamped : copy.StampedBy sender)
      (there : h.rooms.get? sender.userId ≠ none) : Route h sender target [(dev, copy)]

variable {h : Hub} {sender : Conn}

theorem route_device (device : sender.role = .device)
    (target payload : String) : Route h sender target (h.routeApp sender target payload) := by
  unfold Hub.routeApp
  simp only [device]
  cases room : h.rooms.get? sender.userId with
  | none => exact .roomGone device room
  | some r =>
    have member : h.member (.device, sender.userId, target) = r.devices.get? target := by
      simp [Hub.member, Room.members, room]
    dsimp only
    split
    · rename_i named
      cases held : r.devices.get? target with
      | none => exact .undeliverable named (by simp [member, held]) (by simp [room])
      | some dev =>
        dsimp only
        split
        · rename_i own
          exact .undeliverable named (by simp [member, held, own]) (by simp [room])
        · rename_i other
          refine .directed named (member.trans held) other rfl ?_ (by simp [room])
          simp [appFromDeviceDirectedFrame, Frame.StampedBy, device, Conn.deviceId]
    · rename_i absent
      refine .broadcast device (not_not.mp absent) room ?_
      simp [appFromDeviceFrame, Frame.StampedBy, device, Conn.deviceId]

variable {target : String}

theorem route_client (keyed : h.Keyed) (client : sender.role = .client)
    (named : target ≠ "") (payload : String) :
    Route h sender target (h.routeApp sender target payload) := by
  have member : h.member (.device, sender.userId, target) =
      (h.rooms.get? sender.userId).bind (fun r => r.devices.get? target) := rfl
  unfold Hub.routeApp
  simp only [client]
  rw [← member]
  cases held : h.member (.device, sender.userId, target) with
  | none => exact .undeliverable named (by simp [held]) (by simp [client])
  | some dev =>
    refine .directed named held ?_ rfl ?_ ?_
    · rintro rfl
      have role := congrArg Prod.fst (keyed _ _ held)
      simp [Conn.key, client] at role
    · simp [appFromClientFrame, Frame.StampedBy, client, Conn.clientId]
    · intro gone
      simp [Hub.member, gone] at held

theorem route_copies (keyed : h.Keyed) (sender : Conn) (w : WireApp) :
    Route h sender w.decode.targetDeviceId (h.copies sender w) := by
  unfold Hub.copies Hub.readApp
  cases role : sender.role with
  | device => simpa using route_device role _ _
  | client =>
    by_cases absent : w.decode.targetDeviceId = ""
    · simpa [absent] using Route.refused role rfl
    · simpa [absent] using route_client keyed role absent _

theorem Route.routed (keyed : h.Keyed) {ds : List Delivery} (route : Route h sender target ds)
    (fine : ¬ Misrouted h sender target) : Routed h sender target ds := by
  cases route with
  | refused client absent =>
    exact ⟨by simp, by simp, fun named => absurd absent named, by simp⟩
  | roomGone device gone =>
    have absent : target = "" := by
      by_contra named
      exact fine ⟨device, named, .inl gone⟩
    exact ⟨by simp, by simp, fun named => absurd absent named, by simp⟩
  | broadcast device absent room stamped =>
    refine ⟨?_, ?_, fun named => absurd absent named, fun _ named => absurd absent named⟩
    · intro d mem _
      obtain ⟨cl, inRoom, rfl⟩ := List.mem_map.mp mem
      have member := (keyed.mem_values (Hub.member_some room .client)).mp inRoom
      exact ⟨member.1, member.2.2⟩
    · intro d mem _
      obtain ⟨cl, _, rfl⟩ := List.mem_map.mp mem
      exact stamped
  | undeliverable named unheld there =>
    exact ⟨by simp [Frame.isCopy], by simp [Frame.isCopy], fun _ => .inr rfl, by simp [Frame.isCopy]⟩
  | directed named held other isCopy stamped there =>
    have key := keyed _ _ held
    refine ⟨?_, by simpa using fun _ => stamped, fun _ => .inl ⟨_, _, held, isCopy, rfl⟩, ?_⟩
    · intro d mem _
      rw [List.mem_singleton.mp mem]
      exact ⟨by rw [key, held], congrArg (fun k => k.2.1) key⟩
    · intro device _ own
      exact absurd ⟨device, named, .inr ⟨own, _, other, held⟩⟩ fine

theorem Route.not_misrouted {ds : List Delivery}
    (route : Route h sender target ds) (routed : Routed h sender target ds) :
    ¬ Misrouted h sender target := by
  rintro ⟨device, named, fault⟩
  cases route with
  | refused client _ => simp [device] at client
  | broadcast _ absent => exact named absent
  | roomGone => simpa using routed.answered named
  | undeliverable _ unheld there =>
    rcases fault with gone | ⟨_, dev, other, held⟩
    · exact there device gone
    · exact other (unheld dev held)
  | directed _ _ _ isCopy _ there =>
    rcases fault with gone | ⟨own, _⟩
    · exact there gone
    · exact routed.noEcho device named own _ (List.mem_singleton_self _) isCopy

/-- In every state it can reach, the hub routes a frame as it should exactly when the sender is
not a replaced device that names a target its room cannot answer for. -/
theorem routed_iff (opts : Options) (events : List Event) (sender : Conn) (w : WireApp) :
    Routed (System.run opts events).hub sender w.decode.targetDeviceId
        ((System.run opts events).hub.copies sender w) ↔
      ¬ Misrouted (System.run opts events).hub sender w.decode.targetDeviceId := by
  have keyed := (System.run_sound opts events).keyed
  have route := route_copies keyed sender w
  exact ⟨route.not_misrouted, route.routed keyed⟩

theorem Route.isolated (keyed : h.Keyed) {ds : List Delivery} (route : Route h sender target ds) :
    ∀ d ∈ ds, d.2.isCopy →
      h.member d.1.key = some d.1 ∧ d.1.userId = sender.userId ∧ d.2.StampedBy sender := by
  intro d mem isCopy
  cases route with
  | refused | roomGone => cases mem
  | broadcast device absent room stamped =>
    obtain ⟨cl, inRoom, rfl⟩ := List.mem_map.mp mem
    have member := (keyed.mem_values (Hub.member_some room .client)).mp inRoom
    exact ⟨member.1, member.2.2, stamped⟩
  | undeliverable =>
    rw [List.mem_singleton.mp mem] at isCopy
    cases isCopy
  | directed named held other _ stamped there =>
    obtain rfl := List.mem_singleton.mp mem
    have key := keyed _ _ held
    exact ⟨by rw [key, held], congrArg (fun k => k.2.1) key, stamped⟩

/-- Copies of a frame stay in its user's room and name the connection it was read from. -/
theorem copies_isolated (opts : Options) (events : List Event) (sender : Conn) (w : WireApp) :
    ∀ d ∈ (System.run opts events).hub.copies sender w, d.2.isCopy →
      (System.run opts events).hub.member d.1.key = some d.1 ∧ d.1.userId = sender.userId ∧
        d.2.StampedBy sender := by
  have keyed := (System.run_sound opts events).keyed
  exact (route_copies keyed sender w).isolated keyed

namespace Scenario

def phone (ref : Nat) : Conn :=
  { ref, userId := "u", hello :=
      { role := .device, deviceId := "phone", deviceName := "Phone", appVersion := "1" } }

def replaced : List Event :=
  [.register (phone 1), .greet (phone 1), .register (phone 2), .greet (phone 2)]

def toItself : WireApp :=
  { fromDeviceId := some "laptop", targetDeviceId := some "phone", payload := "1" }

end Scenario

open Scenario in
theorem copies_isolated_replaced :
    (System.run {} replaced).hub.member (phone 2).key = some (phone 2) :=
  (copies_isolated {} replaced (phone 1) toItself
    (_, .app (some "phone") none (some "phone") "1") (by decide +kernel) rfl).1

open Scenario in
/-- The replaced connection reaches its successor under their common id; once the successor has
left, the same frame is not answered at all. -/
theorem replaced_device_misrouted :
    ((System.run {} replaced).conns (phone 1)).stage = .serving [(phone 1).deviceMeta] ∧
    (System.run {} replaced).hub.copies (phone 1) toItself =
      [(phone 2, .app (some "phone") none (some "phone") "1")] ∧
    ¬ Routed (System.run {} replaced).hub (phone 1) "phone"
      ((System.run {} replaced).hub.copies (phone 1) toItself) ∧
    ((System.run {} (replaced ++ [.unregister (phone 2)])).conns (phone 1)).stage =
      .serving [(phone 1).deviceMeta] ∧
    (System.run {} (replaced ++ [.unregister (phone 2)])).hub.copies (phone 1) toItself = [] ∧
    ¬ Routed (System.run {} (replaced ++ [.unregister (phone 2)])).hub (phone 1) "phone"
      ((System.run {} (replaced ++ [.unregister (phone 2)])).hub.copies (phone 1) toItself) := by
  have echoed : (System.run {} replaced).hub.copies (phone 1) toItself =
      [(phone 2, .app (some "phone") none (some "phone") "1")] := by decide +kernel
  have silent : (System.run {} (replaced ++ [.unregister (phone 2)])).hub.copies (phone 1)
      toItself = [] := by decide +kernel
  refine ⟨by decide +kernel, echoed, ?_, by decide +kernel, silent, ?_⟩
  · rw [echoed]
    intro routed
    exact routed.noEcho rfl (by decide) rfl _ (List.mem_singleton_self _) rfl
  · rw [silent]
    intro routed
    simpa using routed.answered (by decide)

end YunhouUsers.Relay
