import YunhouUsers.Relay.Rooms
import YunhouUsers.Replay

/-!
What a connection knows of the devices of its room.

It reads the device table of `hello_ok` first and applies the presence frames of its queue to it.
The table is taken after the registration, so the queue may repeat what the table already says.
-/

namespace YunhouUsers.Relay

open Replay

def Frame.change : Frame → Option (Change String PresenceMeta)
  | .presence deviceId true info => some (deviceId, some (info.getD ⟨"", ""⟩))
  | .presence deviceId false _ => some (deviceId, none)
  | _ => none

def changes (frames : List Frame) : List (Change String PresenceMeta) := frames.filterMap Frame.change

def listed (devices : List DeviceInfo) (id : String) : Option PresenceMeta :=
  (devices.find? (·.deviceId = id)).map DeviceInfo.presence

def Hub.online (h : Hub) (userId id : String) : Option PresenceMeta :=
  (h.member (.device, userId, id)).map (·.deviceMeta.presence)

def Conn.Foreign (c : Conn) (id : String) : Prop := c.role = .device → id ≠ c.id

def Event.isMembership : Event → Bool
  | .register _ | .greet _ | .write _ | .deliver _ | .unregister _ => true
  | .read .. | .close .. | .shutdown => false

variable {h : Hub}

theorem Hub.Keyed.mem_onlineDevices (keyed : h.Keyed) {userId : String}
    {m : DeviceInfo} : m ∈ h.onlineDevices userId ↔
      ∃ c, h.member c.key = some c ∧ c.role = .device ∧ c.userId = userId ∧ c.deviceMeta = m := by
  unfold Hub.onlineDevices
  cases room : h.rooms.get? userId with
  | none =>
    simp only [List.not_mem_nil, false_iff, not_exists]
    rintro c ⟨member, _, rfl, _⟩
    simp [Hub.member, Conn.key, room] at member
  | some r =>
    have devices : ∀ c, c ∈ r.devices.values ↔ _ :=
      fun _ => keyed.mem_values (Hub.member_some room .device)
    simp [mem_sortById, devices, and_assoc]

theorem Hub.Keyed.listed_onlineDevices (keyed : h.Keyed) (userId id : String) :
    listed (h.onlineDevices userId) id = h.online userId id := by
  unfold listed Hub.online
  cases held : h.member (.device, userId, id) with
  | none =>
    have none_listed : (h.onlineDevices userId).find? (·.deviceId = id) = none := by
      rw [List.find?_eq_none]
      intro m mem named
      obtain ⟨c, member, role, rfl, rfl⟩ := keyed.mem_onlineDevices.mp mem
      rw [decide_eq_true_eq, Conn.deviceMeta_deviceId role] at named
      rw [Conn.key, role, named, held] at member
      cases member
    rw [none_listed]
    rfl
  | some c =>
    have key := keyed _ _ held
    simp only [Conn.key, Prod.mk.injEq] at key
    obtain ⟨role, user, named⟩ := key
    have inList : c.deviceMeta ∈ h.onlineDevices userId :=
      keyed.mem_onlineDevices.mpr ⟨c, by rw [Conn.key, role, user, named, held], role, user, rfl⟩
    -- whichever entry is found, it is the one of the connection under the id
    cases found : (h.onlineDevices userId).find? (·.deviceId = id) with
    | none =>
      have := List.find?_eq_none.mp found _ inList
      rw [decide_eq_true_eq, Conn.deviceMeta_deviceId role] at this
      exact absurd named this
    | some m =>
      obtain ⟨c', member, role', user', rfl⟩ :=
        keyed.mem_onlineDevices.mp (List.mem_of_find?_eq_some found)
      have named' := List.find?_some found
      rw [decide_eq_true_eq, Conn.deviceMeta_deviceId role'] at named'
      rw [Conn.key, role', user', named', held] at member
      rw [Option.some.inj member]
      rfl

/-! What a connection is handed. -/

def framesTo (c : Conn) (ds : List Delivery) : List Frame :=
  (ds.filter (fun d => d.1 = c)).map (fun d => d.2)

variable {c : Conn} {ds : List Delivery} {frames : List Frame}

theorem mem_framesTo {f : Frame} : f ∈ framesTo c ds ↔ (c, f) ∈ ds := by
  simp [framesTo]

namespace ConnState

variable {capacity : Nat}

def enqueueAll (capacity : Nat) (s : ConnState) (frames : List Frame) : ConnState :=
  frames.foldl (fun s f => s.enqueue capacity f) s

structure Takes (s s' : ConnState) (frames : List Frame) : Prop where
  stage : s'.stage = s.stage
  closing : s'.closing = s.closing ∨ s'.closing = some .slowConsumer
  queued : s'.closing = none → s'.queued = s.queued ++ frames

variable (s : ConnState)

theorem takes_enqueue {f : Frame} (notClosed : f.change.isSome) :
    Takes s (s.enqueue capacity f) [f] := by
  unfold enqueue
  split
  · rename_i closing
    refine ⟨rfl, .inl rfl, fun opened => ?_⟩
    simp [opened] at closing
  · split
    · cases notClosed
    · rename_i opened _ _
      split
      · exact ⟨rfl, .inl rfl, fun _ => by simp [queued]⟩
      · simp only [initiateClose, if_neg opened]
        exact ⟨rfl, .inr rfl, fun h => by cases h⟩

theorem Takes.refl : Takes s s [] := ⟨rfl, .inl rfl, fun _ => by simp⟩

theorem Takes.trans {s s' s'' : ConnState} {more : List Frame}
    (first : Takes s s' frames) (second : Takes s' s'' more) : Takes s s'' (frames ++ more) := by
  refine ⟨second.stage.trans first.stage, ?_, fun opened => ?_⟩
  · rcases second.closing with same | slow
    · rw [same]
      exact first.closing
    · exact .inr slow
  · have before : s'.closing = none := by
      rcases second.closing with same | slow
      · rw [← same, opened]
      · rw [opened] at slow
        cases slow
    rw [second.queued opened, first.queued before, List.append_assoc]

theorem stage_enqueue (f : Frame) : (s.enqueue capacity f).stage = s.stage := by
  have close : ∀ reason, (s.initiateClose capacity reason).stage = s.stage := by
    intro reason
    unfold initiateClose
    split <;> rfl
  unfold enqueue
  split
  · rfl
  · split
    · exact close _
    · split
      · rfl
      · exact close _

theorem stage_enqueueAll (frames : List Frame) :
    (s.enqueueAll capacity frames).stage = s.stage := by
  induction frames generalizing s with
  | nil => rfl
  | cons f frames ih => exact (ih _).trans (s.stage_enqueue f)

theorem takes_enqueueAll (presence : ∀ f ∈ frames, f.change.isSome) :
    Takes s (s.enqueueAll capacity frames) frames := by
  induction frames generalizing s with
  | nil => exact .refl s
  | cons f frames ih =>
    obtain ⟨first, rest⟩ := List.forall_mem_cons.mp presence
    exact (s.takes_enqueue first).trans (ih _ rest)

end ConnState

theorem System.conns_deliver (s : System) (ds : List Delivery) (c : Conn) :
    (s.deliver ds).conns c =
      (s.conns c).enqueueAll s.hub.opts.outboundBuffer (framesTo c ds) := by
  simp [System.deliver, ConnState.enqueueAll, framesTo, List.foldl_map]

/-! What a connection knows. -/

/-- Replaying the queue over the device table, now or at any moment since the registration,
shows what the room holds under `id`. -/
structure Follows (st : ConnState) (table : String → Option PresenceMeta) (id : String) : Prop where
  current : Announces (changes st.queued) table table id
  shown : ∀ devices, st.stage = .serving devices →
    replay (changes st.queued) (listed devices) id = table id

theorem changes_append (frames more : List Frame) :
    changes (frames ++ more) = changes frames ++ changes more :=
  List.filterMap_append

variable {table table' : String → Option PresenceMeta}

theorem Follows.continued {st st' : ConnState} {id : String} (follows : Follows st table id)
    (stage : st'.stage = st.stage) (queued : st'.queued = st.queued ++ frames)
    (announces : Announces (changes frames) table table' id) : Follows st' table' id := by
  refine ⟨?_, fun devices serving => ?_⟩
  · rw [queued, changes_append]
    exact follows.current.continued announces
  · rw [queued, changes_append]
    exact announces.shown (follows.shown devices (stage ▸ serving))

theorem announces_change {key : String} {value : Option PresenceMeta}
    (report : ∀ f ∈ frames, f.change = some (key, value)) (reported : frames ≠ [])
    (table : String → Option PresenceMeta) (id : String) :
    Announces (changes frames) table (Function.update table key value) id := by
  have agree : ∀ change ∈ changes frames,
      change.2 = Function.update table key value change.1 := by
    intro change mem
    obtain ⟨f, inFrames, eq⟩ := List.mem_filterMap.mp mem
    rw [report f inFrames] at eq
    rw [← Option.some.inj eq, Function.update_self]
  by_cases same : id = key
  · obtain ⟨f, inFrames⟩ := List.exists_mem_of_ne_nil _ reported
    refine Announces.of_mention agree ⟨(key, value), ?_, same.symm⟩
    exact List.mem_filterMap.mpr ⟨f, inFrames, report f inFrames⟩
  · exact Announces.of_agree agree (Function.update_of_ne same _ _)

theorem change_onlineFrame (device : c.role = .device) :
    c.onlineFrame.change = some (c.id, some c.deviceMeta.presence) := by
  simp [Conn.onlineFrame, presenceFrame, Frame.change, Conn.deviceId_of_device device]

theorem change_offlineFrame (device : c.role = .device) :
    c.offlineFrame.change = some (c.id, none) := by
  simp [Conn.offlineFrame, presenceFrame, Frame.change, Conn.deviceId_of_device device]

variable {h' : Hub} {holder : Option Conn}

theorem online_update
    (members : h'.member = Function.update h.member c.key holder) (userId : String) :
    h'.online userId =
      if c.role = .device ∧ c.userId = userId then
        Function.update (h.online userId) c.id (holder.map (·.deviceMeta.presence))
      else h.online userId := by
  funext id
  unfold Hub.online
  rw [members, Function.update_apply]
  split <;> split <;> simp_all [Conn.key]

structure Attached (c : Conn) (st : ConnState) (table : String → Option PresenceMeta) : Prop where
  begun : st.stage ≠ .opening
  live : st.stage ≠ .finished
  closing : st.closing = none ∨ st.closing = some .slowConsumer
  follows : st.closing = none → ∀ id, c.Foreign id → Follows st table id

structure System.Tracked (s : System) : Prop where
  fresh : ∀ c, (s.conns c).stage = .opening → s.conns c = {}
  -- only replaced connections are still to be handed something
  pending : ∀ d ∈ s.pending, (s.conns d.1).stage ≠ .opening ∧ s.hub.member d.1.key ≠ some d.1
  attached : ∀ c, s.hub.member c.key = some c →
    Attached c (s.conns c) (s.hub.online c.userId)

theorem Attached.takes {st st' : ConnState}
    (attached : Attached c st table) (taken : st.Takes st' frames)
    (announces : ∀ id, Announces (changes frames) table table' id) : Attached c st' table' := by
  refine ⟨taken.stage ▸ attached.begun, taken.stage ▸ attached.live, ?_, fun opened id foreign => ?_⟩
  · rcases taken.closing with same | slow
    · rw [same]
      exact attached.closing
    · exact .inr slow
  · have before : st.closing = none := by
      rcases taken.closing with same | slow
      · rw [← same, opened]
      · rw [opened] at slow
        cases slow
    exact (attached.follows before id foreign).continued taken.stage (taken.queued opened)
      (announces id)

theorem mem_register {kicked : Option Conn}
    (keyed : h'.Keyed) (ok : h.register c = (h', .ok (kicked, ds))) {d : Conn} {f : Frame} :
    (d, f) ∈ ds ↔ c.role = .device ∧
      ((d ≠ c ∧ h'.member d.key = some d ∧ d.userId = c.userId ∧ f = c.onlineFrame) ∨
      (d = c ∧ ∃ other, other ≠ c ∧ other.role = .device ∧ h'.member other.key = some other ∧
        other.userId = c.userId ∧ f = other.onlineFrame)) := by
  obtain ⟨r, _, hub, _, rfl, _⟩ := Hub.register_ok ok
  have found : h'.rooms.get? c.userId = some (r.join c) := by
    rw [hub, StringMap.get?_insert, if_pos rfl]
  split
  · rename_i device
    simp only [device, true_and]
    exact keyed.mem_announce device found
  · rename_i client
    simp [client]

theorem online_of_member {d : Conn} (device : d.role = .device) (member : h.member d.key = some d) :
    h.online d.userId d.id = some d.deviceMeta.presence := by
  rw [Conn.key, device] at member
  simp [Hub.online, member]

theorem announces_frames {d : Conn} {frame : Frame}
    (members : h'.member = Function.update h.member c.key holder)
    (handed : ∀ f, (d, f) ∈ ds ↔ c.role = .device ∧ d.userId = c.userId ∧ f = frame)
    (reports : c.role = .device →
      frame.change = some (c.id, holder.map (·.deviceMeta.presence))) (id : String) :
    Announces (changes (framesTo d ds)) (h.online d.userId) (h'.online d.userId) id := by
  rw [online_update members]
  split
  · rename_i here
    refine announces_change (fun f mem => ?_) ?_ _ id
    · rw [((handed f).mp (mem_framesTo.mp mem)).2.2, reports here.1]
    · exact List.ne_nil_of_mem
        (mem_framesTo.mpr ((handed frame).mpr ⟨here.1, here.2.symm, rfl⟩))
  · rename_i elsewhere
    have nothing : framesTo d ds = [] := by
      refine List.eq_nil_iff_forall_not_mem.mpr fun f mem => elsewhere ?_
      obtain ⟨device, user, _⟩ := (handed f).mp (mem_framesTo.mp mem)
      exact ⟨device, user.symm⟩
    rw [nothing]
    exact Announces.nil rfl

namespace System.Tracked

variable {s : System}

theorem not_member_of_opening (tracked : s.Tracked)
    (opening : (s.conns c).stage = .opening) : s.hub.member c.key ≠ some c :=
  fun member => (tracked.attached c member).begun opening

theorem undisturbed (tracked : s.Tracked) {s' : System} (members : s'.hub.member = s.hub.member)
    (same : ∀ c, s.hub.member c.key = some c → (s.conns c).Takes (s'.conns c) [])
    (started : ∀ c, (s'.conns c).stage = .opening → s'.conns c = s.conns c)
    (pending : ∀ d ∈ s'.pending, d ∈ s.pending) : s'.Tracked := by
  have online : s'.hub.online = s.hub.online := by
    unfold Hub.online
    rw [members]
  constructor
  · intro c opening
    have eq := started c opening
    rw [eq] at opening ⊢
    exact tracked.fresh c opening
  · intro d mem
    obtain ⟨begun, gone⟩ := tracked.pending d (pending d mem)
    rw [members]
    refine ⟨fun opening => begun ?_, gone⟩
    rw [← started d.1 opening]
    exact opening
  · intro c member
    rw [members] at member
    rw [online]
    exact (tracked.attached c member).takes (same c member) fun _ => Announces.nil rfl

theorem refused (tracked : s.Tracked) (members : h'.member = s.hub.member)
    (opening : (s.conns c).stage = .opening) :
    (System.setStage { s with hub := h' } c .finished).Tracked := by
  have other : ∀ d, d ≠ c → (System.setStage { s with hub := h' } c .finished).conns d =
      s.conns d := fun d ne => Function.update_of_ne ne _ _
  refine tracked.undisturbed members (fun d member => ?_) (fun d begun => ?_) fun _ mem => mem
  · have ne : d ≠ c := by
      rintro rfl
      exact tracked.not_member_of_opening opening member
    rw [other d ne]
    exact .refl _
  · by_cases eq : d = c
    · subst eq
      simp [System.setStage] at begun
    · exact other d eq

theorem greeted (tracked : s.Tracked) (keyed : s.hub.Keyed) (c : Conn) :
    (s.setStage c (.serving (s.hub.onlineDevices c.userId))).Tracked := by
  have other : ∀ d, d ≠ c → (s.setStage c (.serving (s.hub.onlineDevices c.userId))).conns d =
      s.conns d := fun d ne => Function.update_of_ne ne _ _
  have own : (s.setStage c (.serving (s.hub.onlineDevices c.userId))).conns c =
      { s.conns c with stage := .serving (s.hub.onlineDevices c.userId) } :=
    Function.update_self ..
  constructor
  · intro d opening
    by_cases eq : d = c
    · subst eq
      simp [own] at opening
    · rw [other d eq] at opening ⊢
      exact tracked.fresh d opening
  · intro d mem
    obtain ⟨begun, gone⟩ := tracked.pending d mem
    refine ⟨?_, gone⟩
    by_cases eq : d.1 = c
    · simp [eq, own]
    · rwa [other d.1 eq]
  · intro d member
    have attached := tracked.attached d member
    by_cases eq : d = c
    · subst eq
      rw [own]
      refine ⟨by simp, by simp, attached.closing, fun opened id foreign => ?_⟩
      have follows := attached.follows opened id foreign
      -- the queue may be replayed over the table as it is now
      refine ⟨follows.current, fun devices serving => ?_⟩
      obtain rfl := Stage.serving.inj serving
      exact follows.current _ (keyed.listed_onlineDevices d.userId id)
    · rw [other d eq]
      exact attached

theorem attached_new {kicked : Option Conn}
    (keyed : h'.Keyed) (ok : h.register c = (h', .ok (kicked, ds))) (capacity : Nat) :
    Attached c (ConnState.enqueueAll capacity { stage := .registered } (framesTo c ds))
      (h'.online c.userId) := by
  have report : ∀ f ∈ framesTo c ds, ∃ other : Conn, other.role = .device ∧
      h'.member other.key = some other ∧ other.userId = c.userId ∧ f = other.onlineFrame := by
    intro f mem
    obtain ⟨_, ⟨ne, _⟩ | ⟨_, other, _, role, member, user, eq⟩⟩ :=
      (mem_register keyed ok).mp (mem_framesTo.mp mem)
    · exact absurd rfl ne
    · exact ⟨other, role, member, user, eq⟩
  have taken : ({ stage := .registered } : ConnState).Takes
      (ConnState.enqueueAll capacity { stage := .registered } (framesTo c ds)) (framesTo c ds) := by
    refine ConnState.takes_enqueueAll _ fun f mem => ?_
    obtain ⟨other, role, _, _, rfl⟩ := report f mem
    simp [change_onlineFrame role]
  have agree : ∀ change ∈ changes (framesTo c ds), change.2 = h'.online c.userId change.1 := by
    intro change mem
    obtain ⟨f, inFrames, eq⟩ := List.mem_filterMap.mp mem
    obtain ⟨other, role, member, user, rfl⟩ := report f inFrames
    rw [change_onlineFrame role] at eq
    rw [← Option.some.inj eq, ← user, online_of_member role member]
  refine ⟨by simp [taken.stage], by simp [taken.stage], taken.closing, fun opened id _ => ?_⟩
  refine ⟨?_, fun devices serving => by simp [taken.stage] at serving⟩
  rw [taken.queued opened]
  exact Announces.of_agree agree rfl

theorem changed (tracked : s.Tracked) (keyed : s.hub.Keyed) {s' : System}
    {frame : Frame} (ds : List Delivery)
    (capacity : Nat) (members : s'.hub.member = Function.update s.hub.member c.key holder)
    (sole : ∀ d, holder = some d → d = c)
    (reports : c.role = .device →
      frame.change = some (c.id, holder.map (·.deviceMeta.presence)))
    (handed : ∀ d f, d ≠ c → ((d, f) ∈ ds ↔ c.role = .device ∧ s'.hub.member d.key = some d ∧
      d.userId = c.userId ∧ f = frame))
    (conns : ∀ d, d ≠ c → s'.conns d = (s.conns d).enqueueAll capacity (framesTo d ds))
    (begun : (s'.conns c).stage ≠ .opening)
    (attached : s'.hub.member c.key = some c →
      Attached c (s'.conns c) (s'.hub.online c.userId))
    (pending : ∀ p ∈ s'.pending, p.1 ≠ c ∧ (p ∈ s.pending ∨ s.hub.member c.key = some p.1)) :
    s'.Tracked := by
  -- whoever is in the table now was in it before, or is `c`
  have before : ∀ d, d ≠ c → s'.hub.member d.key = some d → s.hub.member d.key = some d := by
    intro d ne member
    rw [members, Function.update_apply] at member
    split at member
    · exact absurd (sole d member) ne
    · exact member
  have taken : ∀ d, d ≠ c → (s.conns d).Takes (s'.conns d) (framesTo d ds) := by
    intro d ne
    rw [conns d ne]
    refine ConnState.takes_enqueueAll _ fun f mem => ?_
    obtain ⟨device, _, _, rfl⟩ := (handed d f ne).mp (mem_framesTo.mp mem)
    simp [reports device]
  constructor
  · intro d opening
    have ne : d ≠ c := by
      rintro rfl
      exact begun opening
    have stage := (taken d ne).stage
    have nothing : framesTo d ds = [] := by
      refine List.eq_nil_iff_forall_not_mem.mpr fun f mem => ?_
      have member := ((handed d f ne).mp (mem_framesTo.mp mem)).2.1
      exact (tracked.attached d (before d ne member)).begun (stage ▸ opening)
    rw [conns d ne, nothing]
    exact tracked.fresh d (stage ▸ opening)
  · intro p mem
    obtain ⟨ne, old⟩ := pending p mem
    rw [(taken p.1 ne).stage]
    rcases old with old | kicked
    · obtain ⟨started, gone⟩ := tracked.pending p old
      exact ⟨started, fun member => gone (before p.1 ne member)⟩
    · have key := keyed _ _ kicked
      rw [← key] at kicked
      refine ⟨(tracked.attached p.1 kicked).begun, fun member => ne (sole p.1 ?_)⟩
      rwa [members, key, Function.update_self] at member
  · intro d member
    by_cases eq : d = c
    · subst eq
      exact attached member
    · refine (tracked.attached d (before d eq member)).takes (taken d eq) ?_
      refine announces_frames members (fun f => ?_) reports
      rw [handed d f eq]
      simp [member]

theorem registered (tracked : s.Tracked) (keyed : s.hub.Keyed)
    (opening : (s.conns c).stage = .opening) : (s.register c).Tracked := by
  unfold System.register
  split
  · split
    · rename_i h' e refused
      exact tracked.refused (member_register_error refused) opening
    · rename_i h' kicked ds ok
      have keyed' := keyed.register_ok ok
      obtain ⟨_, _, _, rfl, _⟩ := Hub.register_ok ok
      have own : ((System.setStage { s with hub := h' } c .registered).deliver ds).conns c =
          ConnState.enqueueAll h'.opts.outboundBuffer { stage := .registered } (framesTo c ds) := by
        rw [System.conns_deliver]
        simp [System.setStage, tracked.fresh c opening]
      have attached := attached_new keyed' ok h'.opts.outboundBuffer
      rw [← own] at attached
      refine tracked.changed keyed ds h'.opts.outboundBuffer (member_register ok)
        (fun d eq => (Option.some.inj eq).symm) change_onlineFrame (fun d f ne => ?_)
        (fun d ne => ?_) attached.begun (fun _ => attached) (fun p mem => ?_)
      · rw [mem_register keyed' ok]
        simp [ne, System.deliver, System.setStage]
      · rw [System.conns_deliver]
        simp [System.setStage, ne]
      · simp only [List.mem_append, List.mem_map, Option.mem_toList, Option.filter_eq_some_iff,
          decide_eq_true_eq] at mem
        rcases mem with old | ⟨k, ⟨held, ne⟩, rfl⟩
        · refine ⟨fun eq => (tracked.pending p old).1 (eq ▸ opening), .inl old⟩
        · exact ⟨ne, .inr held⟩
  · exact tracked.refused rfl opening

theorem left (tracked : s.Tracked) (keyed : s.hub.Keyed) (c : Conn) : (s.unregister c).Tracked := by
  have members := member_unregister s.hub c
  have handed := fun d f => mem_unregister (keyed.unregister c) (d := d) (f := f)
  have conns : ∀ d, d ≠ c → (s.unregister c).conns d = (s.conns d).enqueueAll
      (s.hub.unregister c).1.opts.outboundBuffer (framesTo d (s.hub.unregister c).2) := by
    intro d ne
    unfold System.unregister
    rw [System.conns_deliver]
    simp [System.setStage, ne]
  have own : ((s.unregister c).conns c).stage = .finished := by
    unfold System.unregister
    rw [System.conns_deliver, ConnState.stage_enqueueAll]
    simp [System.setStage]
  by_cases here : s.hub.member c.key = some c
  · rw [if_pos here] at members
    refine tracked.changed keyed (s.hub.unregister c).2 _ members (fun d none => by cases none)
      change_offlineFrame (fun d f _ => ?_) conns (by simp [own]) (fun member => ?_)
      (fun p mem => ⟨?_, .inl mem⟩)
    · rw [handed]
      simp only [here, true_and]
      rfl
    · change (s.hub.unregister c).1.member c.key = some c at member
      rw [members, Function.update_self] at member
      cases member
    · rintro rfl
      exact (tracked.pending p mem).2 here
  · -- a replaced connection leaves unnoticed
    rw [if_neg here] at members
    have same : ∀ d, d ≠ c → (s.unregister c).conns d = s.conns d := by
      intro d ne
      have nothing : framesTo d (s.hub.unregister c).2 = [] :=
        List.eq_nil_iff_forall_not_mem.mpr fun f mem =>
          here ((handed d f).mp (mem_framesTo.mp mem)).1.1
      rw [conns d ne, nothing]
      rfl
    refine tracked.undisturbed members (fun d member => ?_) (fun d opening => same d ?_)
      fun _ mem => mem
    · have ne : d ≠ c := by
        rintro rfl
        exact here member
      rw [same d ne]
      exact .refl _
    · rintro rfl
      rw [own] at opening
      cases opening

theorem wrote (tracked : s.Tracked) (begun : (s.conns c).stage ≠ .opening) :
    ({ s with conns := Function.update s.conns c (s.conns c).write } : System).Tracked := by
  have written : (s.conns c).Takes (s.conns c).write [] := by
    unfold ConnState.write
    split
    · exact .refl _
    · rename_i eq
      exact ⟨rfl, .inl rfl, fun _ => by simp [ConnState.queued, eq]⟩
  refine tracked.undisturbed rfl (fun d _ => ?_) (fun d opening => ?_) fun _ mem => mem
  · by_cases eq : d = c
    · subst eq
      simpa using written
    · simpa [eq] using ConnState.Takes.refl (s.conns d)
  · by_cases eq : d = c
    · subst eq
      simp only [Function.update_self, written.stage] at opening
      exact absurd opening begun
    · simp [eq]

theorem delivered (tracked : s.Tracked) {i : Nat} {d : Delivery} (at_i : s.pending[i]? = some d) :
    (System.deliver { s with pending := s.pending.eraseIdx i } [d]).Tracked := by
  obtain ⟨begun, gone⟩ := tracked.pending d (List.mem_of_getElem? at_i)
  have same : ∀ c, c ≠ d.1 →
      (System.deliver { s with pending := s.pending.eraseIdx i } [d]).conns c = s.conns c := by
    intro c ne
    have nothing : framesTo c [d] = [] := by simp [framesTo, ne.symm]
    rw [System.conns_deliver, nothing]
    rfl
  refine tracked.undisturbed rfl (fun c member => ?_) (fun c opening => same c ?_)
    fun _ mem => List.mem_of_mem_eraseIdx mem
  · rw [same c fun eq => gone (eq ▸ member)]
    exact .refl _
  · rintro rfl
    rw [System.conns_deliver, ConnState.stage_enqueueAll] at opening
    exact begun opening

theorem step (tracked : s.Tracked) (keyed : s.hub.Keyed) {e : Event} (kind : e.isMembership) :
    (s.step e).Tracked := by
  cases e with
  | register c =>
    simp only [System.step]
    split
    · rename_i opening
      exact tracked.registered keyed opening
    · exact tracked
  | greet c =>
    simp only [System.step]
    split
    · exact tracked.greeted keyed c
    · exact tracked
  | write c =>
    simp only [System.step]
    split
    · rename_i serving
      exact tracked.wrote (by simp [serving])
    · exact tracked
  | deliver i =>
    simp only [System.step]
    split
    · rename_i d at_i
      exact tracked.delivered at_i
    · exact tracked
  | unregister c =>
    simp only [System.step]
    split
    · exact tracked.left keyed c
    · exact tracked
  | read | close | shutdown => cases kind

end System.Tracked

theorem System.run_tracked (opts : Options) {events : List Event}
    (kind : ∀ e ∈ events, e.isMembership) : (System.run opts events).Tracked := by
  have start : (System.initial opts).Tracked :=
    ⟨fun _ _ => rfl, fun _ mem => (by cases mem), fun _ member => (by cases member)⟩
  have kept := History.foldl_keeps
    (I := fun s : System => s.hub.Sound opts ∧ s.Tracked) (P := fun _ e => e.isMembership)
    (fun s e inv kind => ⟨System.step_sound inv.1 e, inv.2.step inv.1.keyed kind⟩)
    ⟨System.run_sound opts [], start⟩ (History.along_of_forall kind)
  exact kept.2

/-- Whoever is registered and did not overflow has, from its `hello_ok` table and its queue, the
devices of its room apart from its own; and no room is over its limits. -/
theorem presence_converges (opts : Options) (events : List Event)
    (kind : ∀ e ∈ events, e.isMembership) :
    (∀ c devices, (System.run opts events).hub.member c.key = some c →
      ((System.run opts events).conns c).stage = .serving devices →
      ((System.run opts events).conns c).closing ≠ some .slowConsumer →
      ∀ id, c.Foreign id →
        replay (changes ((System.run opts events).conns c).queued) (listed devices) id =
          (System.run opts events).hub.online c.userId id) ∧
    ∀ userId r, (System.run opts events).hub.rooms.get? userId = some r →
      r.devices.len ≤ opts.maxDevicesPerUser ∧ r.clients.len ≤ opts.maxClientsPerUser := by
  refine ⟨fun c devices member serving noOverflow id foreign => ?_, fun userId r found => ?_⟩
  · have attached := (System.run_tracked opts kind).attached c member
    have opened := attached.closing.resolve_right noOverflow
    exact (attached.follows opened id foreign).shown devices serving
  · have sound := System.run_sound opts events
    have within := sound.limited userId r found
    rw [sound.opts] at within
    exact ⟨within .device, within .client⟩

namespace Scenario

def device (ref : Nat) (id : String) : Conn :=
  { ref, userId := "u", hello :=
      { role := .device, deviceId := id, deviceName := id, appVersion := "1" } }

def viewer : Conn := { ref := 0, userId := "u", hello := { role := .client, clientId := "web" } }

/-- The viewer's table is taken after the laptop came and the phone was replaced; the replaced
connection is torn down last. -/
def busyRoom : List Event :=
  [.register viewer, .register (device 1 "phone"), .greet (device 1 "phone"),
    .register (device 2 "laptop"), .greet (device 2 "laptop"), .register (device 3 "phone"),
    .greet viewer, .write viewer, .deliver 0, .unregister (device 2 "laptop"),
    .unregister (device 1 "phone")]

end Scenario

open Scenario in
theorem presence_converges_busy :
    let s := System.run {} busyRoom
    let view := replay (changes (s.conns viewer).queued)
      (listed [(device 2 "laptop").deviceMeta, (device 3 "phone").deviceMeta])
    (view "laptop" = s.hub.online "u" "laptop" ∧ s.hub.online "u" "laptop" = none) ∧
      view "phone" = s.hub.online "u" "phone" ∧ s.hub.online "u" "phone" = some ⟨"phone", "1"⟩ := by
  have converges := (presence_converges {} busyRoom (by decide)).1 viewer
    [(device 2 "laptop").deviceMeta, (device 3 "phone").deviceMeta] (by decide +kernel)
    (by decide +kernel) (by decide +kernel)
  exact ⟨⟨converges "laptop" fun role => (by cases role), by decide +kernel⟩,
    converges "phone" fun role => (by cases role), by decide +kernel⟩

end YunhouUsers.Relay
