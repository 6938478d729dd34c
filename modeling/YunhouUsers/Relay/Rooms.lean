import YunhouUsers.History
import YunhouUsers.Relay.Hub

/-!
The hub as one table from (role, user, id) to connections.  The maps of rooms are read through
`Hub.member` only; what each call does to them and enqueues is said here once.
-/

namespace YunhouUsers.Relay

namespace StringMap

variable {V : Type} (m : StringMap V)

theorem get?_insert (k : String) (v : V) (k' : String) :
    get? (m.insert k v) k' = if k' = k then some v else m.get? k' := by
  unfold get?
  split
  · rename_i same
    subst same
    exact AList.lookup_insert m
  · rename_i other
    exact AList.lookup_insert_ne other

theorem get?_erase (k k' : String) : get? (m.erase k) k' = if k' = k then none else m.get? k' := by
  unfold get?
  split
  · rename_i same
    subst same
    exact AList.lookup_erase k' m
  · rename_i other
    exact AList.lookup_erase_ne other

theorem mem_values {m : StringMap V} {v : V} : v ∈ m.values ↔ ∃ k, m.get? k = some v := by
  simp only [values, get?, List.mem_map, ← Option.mem_def, AList.mem_lookup_iff]
  constructor
  · rintro ⟨⟨k, _⟩, mem, rfl⟩
    exact ⟨k, mem⟩
  · rintro ⟨k, mem⟩
    exact ⟨⟨k, v⟩, mem, rfl⟩

theorem len_insert_le (k : String) (v : V) {limit : Nat}
    (within : m.len ≤ limit) (room : m.get? k = none → m.len < limit) :
    len (m.insert k v) ≤ limit := by
  simp only [len, AList.keys_insert, List.length_cons] at *
  by_cases mem : k ∈ m.keys
  · rw [List.length_erase_of_mem mem]
    have := List.length_pos_of_mem mem
    omega
  · rw [List.erase_of_not_mem mem]
    exact room (AList.lookup_eq_none.mpr mem)

theorem len_erase_le (k : String) : len (m.erase k) ≤ m.len := by
  simpa only [len, AList.keys_erase] using List.length_erase_le

theorem get?_of_len_eq_zero {m : StringMap V} (empty : m.len = 0) (k : String) :
    m.get? k = none := by
  refine AList.lookup_eq_none.mpr fun mem => ?_
  have := List.length_pos_of_mem (AList.mem_keys.mp mem)
  unfold len at empty
  omega

end StringMap

abbrev Key := Role × String × String

def Conn.key (c : Conn) : Key := (c.role, c.userId, c.id)

variable (r : Room)

def Room.members : Role → StringMap Conn
  | .device => r.devices
  | .client => r.clients

variable (h : Hub)

def Hub.member : Key → Option Conn
  | (role, userId, id) => (h.rooms.get? userId).bind (fun r => (r.members role).get? id)

def Hub.Keyed : Prop := ∀ k c, h.member k = some c → c.key = k

def Options.limit (opts : Options) : Role → Nat
  | .device => opts.maxDevicesPerUser
  | .client => opts.maxClientsPerUser

def Hub.Limited : Prop :=
  ∀ userId r, h.rooms.get? userId = some r → ∀ role, (r.members role).len ≤ h.opts.limit role

variable {c : Conn}

theorem Conn.deviceId_of_device (role : c.role = .device) : c.deviceId = c.id := by
  simp [Conn.deviceId, role]

theorem Conn.clientId_of_client (role : c.role = .client) : c.clientId = c.id := by
  simp [Conn.clientId, role]

theorem Conn.deviceMeta_deviceId (role : c.role = .device) : c.deviceMeta.deviceId = c.id := by
  unfold Conn.role at role
  simp [Conn.deviceMeta, Conn.id, helloId, role]

variable {h : Hub} {userId : String}

theorem Hub.Keyed.mem_values (keyed : h.Keyed) {role : Role}
    {m : StringMap Conn} (shown : ∀ id, m.get? id = h.member (role, userId, id)) :
    c ∈ m.values ↔ h.member c.key = some c ∧ c.role = role ∧ c.userId = userId := by
  simp only [StringMap.mem_values, shown]
  constructor
  · rintro ⟨id, member⟩
    have key := keyed _ _ member
    simp only [Conn.key, Prod.mk.injEq] at key
    obtain ⟨rfl, rfl, rfl⟩ := key
    exact ⟨member, rfl, rfl⟩
  · rintro ⟨member, rfl, rfl⟩
    exact ⟨c.id, member⟩

variable {r : Room}

theorem Hub.member_some (found : h.rooms.get? userId = some r) (role : Role) (id : String) :
    (r.members role).get? id = h.member (role, userId, id) := by
  simp [Hub.member, found]

theorem member_insert (userId : String) (r : Room) (k : Key) :
    ({ h with rooms := h.rooms.insert userId r } : Hub).member k =
      if k.2.1 = userId then (r.members k.1).get? k.2.2 else h.member k := by
  obtain ⟨role, user, id⟩ := k
  simp only [Hub.member, StringMap.get?_insert]
  split <;> rfl

theorem member_erase (userId : String) (k : Key) :
    ({ h with rooms := h.rooms.erase userId } : Hub).member k =
      if k.2.1 = userId then none else h.member k := by
  obtain ⟨role, user, id⟩ := k
  simp only [Hub.member, StringMap.get?_erase]
  split <;> rfl

theorem get?_getD (role : Role) (userId id : String) :
    (((h.rooms.get? userId).getD {}).members role).get? id = h.member (role, userId, id) := by
  dsimp only [Hub.member]
  cases h.rooms.get? userId with
  | none => cases role <;> rfl
  | some r => rfl

/-! What the calls of the hub do. -/

def Room.join (c : Conn) : Room :=
  match c.role with
  | .device => { r with devices := r.devices.insert c.id c }
  | .client => { r with clients := r.clients.insert c.id c }

theorem Room.get?_join (c : Conn) (role : Role) (id : String) :
    ((r.join c).members role).get? id =
      if role = c.role ∧ id = c.id then some c else (r.members role).get? id := by
  unfold Room.join
  cases role <;> cases eq : c.role <;> simp [Room.members, StringMap.get?_insert]

variable {h' : Hub} {kicked : Option Conn} {ds : List Delivery}

theorem Hub.register_ok (ok : h.register c = (h', .ok (kicked, ds))) :
    ∃ r, r = (h.rooms.get? c.userId).getD {} ∧
      h' = { h with rooms := h.rooms.insert c.userId (r.join c) } ∧
      kicked = h.member c.key ∧
      ds = (if c.role = .device then (r.join c).announce c else []) ∧
      ((r.members c.role).get? c.id = none → (r.members c.role).len < h.opts.limit c.role) := by
  refine ⟨_, rfl, ?_⟩
  rw [Conn.key, ← get?_getD]
  unfold Hub.register at ok
  generalize (h.rooms.get? c.userId).getD {} = r at ok ⊢
  split at ok
  · cases ok
  dsimp only at ok
  cases role : c.role with
  | device =>
    simp only [role, Conn.deviceId_of_device role] at ok
    split at ok
    · cases ok
    · rename_i admitted
      simp only [Prod.mk.injEq, Except.ok.injEq] at ok
      obtain ⟨rfl, rfl, rfl⟩ := ok
      refine ⟨by simp [Room.join, role], rfl, by simp [Room.join, role], ?_⟩
      simpa only [Room.members, Options.limit, not_and, not_le] using admitted
  | client =>
    simp only [role, Conn.clientId_of_client role] at ok
    split at ok
    · cases ok
    · rename_i admitted
      simp only [Prod.mk.injEq, Except.ok.injEq] at ok
      obtain ⟨rfl, rfl, rfl⟩ := ok
      refine ⟨by simp [Room.join, role], rfl, by simp, ?_⟩
      simpa only [Room.members, Options.limit, not_and, not_le] using admitted

theorem Hub.register_error {e : CloseReason} (refused : h.register c = (h', .error e)) :
    h' = h ∨ h' = { h with
      rooms := h.rooms.insert c.userId ((h.rooms.get? c.userId).getD {}) } := by
  unfold Hub.register at refused
  split at refused
  · exact .inl (Prod.mk.inj refused).1.symm
  · refine .inr ?_
    dsimp only at refused
    split at refused <;> split at refused <;> simp_all

theorem member_register (ok : h.register c = (h', .ok (kicked, ds))) :
    h'.member = Function.update h.member c.key (some c) := by
  obtain ⟨r, rfl, rfl, _⟩ := Hub.register_ok ok
  funext ⟨role, userId, id⟩
  rw [member_insert, Room.get?_join, get?_getD, Function.update_apply]
  dsimp only [Conn.key]
  split_ifs <;> simp_all

theorem member_register_error {e : CloseReason}
    (refused : h.register c = (h', .error e)) : h'.member = h.member := by
  rcases Hub.register_error refused with rfl | rfl
  · rfl
  · funext ⟨role, userId, id⟩
    rw [member_insert, get?_getD]
    dsimp only
    split
    · rename_i same
      rw [same]
    · rfl

theorem Room.get?_remove (c : Conn) (role : Role) (id : String) :
    (((r.remove c).getD r).members role).get? id =
      if (r.members c.role).get? c.id = some c ∧ role = c.role ∧ id = c.id then none
      else (r.members role).get? id := by
  unfold Room.remove
  cases eq : c.role with
  | device =>
    dsimp only
    rw [Conn.deviceId_of_device eq]
    by_cases here : r.devices.get? c.id = some c <;> cases role <;>
      simp [here, Room.members, StringMap.get?_erase]
  | client =>
    dsimp only
    rw [Conn.clientId_of_client eq]
    by_cases here : r.clients.get? c.id = some c <;> cases role <;>
      simp [here, Room.members, StringMap.get?_erase]

theorem Hub.unregister_some (found : h.rooms.get? c.userId = some r) (k : Key) :
    (h.unregister c).1.member k =
      if k.2.1 = c.userId then (((r.remove c).getD r).members k.1).get? k.2.2 else h.member k := by
  unfold Hub.unregister
  rw [found]
  dsimp only
  split
  · rename_i empty
    rw [member_erase]
    -- the room is dropped once nobody is in it
    have gone : (((r.remove c).getD r).members k.1).get? k.2.2 = none := by
      cases k.1
      · exact StringMap.get?_of_len_eq_zero empty.1 _
      · exact StringMap.get?_of_len_eq_zero empty.2 _
    rw [gone]
  · rw [member_insert]

theorem member_unregister (h : Hub) (c : Conn) :
    (h.unregister c).1.member =
      if h.member c.key = some c then Function.update h.member c.key none else h.member := by
  cases found : h.rooms.get? c.userId with
  | none =>
    have absent : h.member c.key ≠ some c := by simp [Hub.member, Conn.key, found]
    rw [if_neg absent]
    simp [Hub.unregister, found]
  | some r =>
    funext ⟨role, userId, id⟩
    rw [Hub.unregister_some found, Room.get?_remove, Hub.member_some found,
      Hub.member_some found]
    change (if userId = c.userId then if h.member c.key = some c ∧ _ then _ else _ else _) = _
    by_cases here : h.member c.key = some c
    · rw [if_pos here, Function.update_apply]
      simp only [here, true_and]
      simp only [Conn.key, Prod.mk.injEq]
      split_ifs <;> simp_all
    · rw [if_neg here]
      simp only [here, false_and, if_false]
      split_ifs <;> simp_all

/-! What the calls enqueue. -/

def Conn.onlineFrame (c : Conn) : Frame := presenceFrame c.deviceId true (some c.deviceMeta)

def Conn.offlineFrame (c : Conn) : Frame := presenceFrame c.deviceId false none

theorem mem_sortById {devices : List DeviceInfo} {m : DeviceInfo} :
    m ∈ sortById devices ↔ m ∈ devices :=
  (List.perm_insertionSort _ _).mem_iff

theorem Conn.onlineFrame_of_device (device : c.role = .device) :
    presenceFrame c.deviceMeta.deviceId true (some c.deviceMeta) = c.onlineFrame := by
  rw [Conn.onlineFrame, Conn.deviceMeta_deviceId device, Conn.deviceId_of_device device]

theorem Hub.Keyed.mem_announce (keyed : h.Keyed) (device : c.role = .device)
    (found : h.rooms.get? c.userId = some r) {d : Conn} {f : Frame} :
    (d, f) ∈ r.announce c ↔
      (d ≠ c ∧ h.member d.key = some d ∧ d.userId = c.userId ∧ f = c.onlineFrame) ∨
      (d = c ∧ ∃ other, other ≠ c ∧ other.role = .device ∧ h.member other.key = some other ∧
        other.userId = c.userId ∧ f = other.onlineFrame) := by
  have clients : ∀ d, d ∈ r.clients.values ↔
      h.member d.key = some d ∧ d.role = .client ∧ d.userId = c.userId :=
    fun _ => keyed.mem_values (Hub.member_some found .client)
  have devices : ∀ d, d ∈ r.devices.values ↔
      h.member d.key = some d ∧ d.role = .device ∧ d.userId = c.userId :=
    fun _ => keyed.mem_values (Hub.member_some found .device)
  simp only [Room.announce, List.mem_append, List.mem_map, List.mem_filter, mem_sortById,
    Prod.mk.injEq, clients, devices, decide_eq_true_eq, exists_exists_and_eq_and]
  constructor
  · rintro ((⟨_, ⟨here, role, user⟩, rfl, rfl⟩ | ⟨_, ⟨⟨here, role, user⟩, ne⟩, rfl, rfl⟩) |
      ⟨other, ⟨⟨here, role, user⟩, ne⟩, rfl, rfl⟩)
    · exact .inl ⟨fun same => by simp_all, here, user, rfl⟩
    · exact .inl ⟨ne, here, user, rfl⟩
    · exact .inr ⟨rfl, other, ne, role, here, user, Conn.onlineFrame_of_device role⟩
  · rintro (⟨ne, here, user, rfl⟩ | ⟨rfl, other, ne, role, here, user, rfl⟩)
    · cases role : d.role with
      | device => exact .inl (.inr ⟨d, ⟨⟨here, role, user⟩, ne⟩, rfl, rfl⟩)
      | client => exact .inl (.inl ⟨d, ⟨here, role, user⟩, rfl, rfl⟩)
    · exact .inr ⟨other, ⟨⟨here, role, user⟩, ne⟩, rfl, Conn.onlineFrame_of_device role⟩

theorem mem_unregister (keyed : (h.unregister c).1.Keyed) {d : Conn} {f : Frame} :
    (d, f) ∈ (h.unregister c).2 ↔ (h.member c.key = some c ∧ c.role = .device) ∧
      (h.unregister c).1.member d.key = some d ∧ d.userId = c.userId ∧ f = c.offlineFrame := by
  cases found : h.rooms.get? c.userId with
  | none =>
    have absent : h.member c.key ≠ some c := by simp [Hub.member, Conn.key, found]
    simp [Hub.unregister, found, absent]
  | some r =>
    have here : (r.remove c).isSome = true ↔ h.member c.key = some c := by
      rw [Conn.key, ← Hub.member_some found]
      unfold Room.remove
      cases role : c.role <;>
        simp only [Conn.deviceId_of_device, Conn.clientId_of_client, role, Room.members] <;>
        split <;> simp_all
    have deliveries : (h.unregister c).2 =
        if h.member c.key = some c ∧ c.role = .device then
          (((r.remove c).getD r).clients.values ++ ((r.remove c).getD r).devices.values).map
            (fun d => (d, c.offlineFrame))
        else [] := by
      simp only [← here]
      unfold Hub.unregister
      rw [found]
      dsimp only
      split <;> rfl
    have shown : ∀ role id, (((r.remove c).getD r).members role).get? id =
        (h.unregister c).1.member (role, c.userId, id) := by
      intro role id
      rw [Hub.unregister_some found, if_pos rfl]
    have clients : ∀ d, d ∈ ((r.remove c).getD r).clients.values ↔ _ :=
      fun d => keyed.mem_values (shown .client)
    have devices : ∀ d, d ∈ ((r.remove c).getD r).devices.values ↔ _ :=
      fun d => keyed.mem_values (shown .device)
    rw [deliveries]
    split
    · rename_i leaves
      simp only [List.mem_map, List.mem_append, clients, devices, Prod.mk.injEq, leaves, true_and]
      constructor
      · rintro ⟨_, (⟨here, _, user⟩ | ⟨here, _, user⟩), rfl, rfl⟩
        · exact ⟨here, user, rfl⟩
        · exact ⟨here, user, rfl⟩
      · rintro ⟨here, user, rfl⟩
        refine ⟨d, ?_, rfl, rfl⟩
        cases role : d.role
        · exact .inr ⟨here, rfl, user⟩
        · exact .inl ⟨here, rfl, user⟩
    · rename_i stays
      simp [stays]

/-! Both invariants hold in every state the relay can reach. -/

theorem Hub.Keyed.register_ok (keyed : h.Keyed) (ok : h.register c = (h', .ok (kicked, ds))) :
    h'.Keyed := by
  intro k d member
  rw [member_register ok, Function.update_apply] at member
  split at member
  · rename_i same
    rw [same, ← Option.some.inj member]
  · exact keyed k d member

theorem Hub.Keyed.unregister (keyed : h.Keyed) (c : Conn) : (h.unregister c).1.Keyed := by
  intro k d member
  rw [member_unregister] at member
  split at member
  · rw [Function.update_apply] at member
    split at member
    · cases member
    · exact keyed k d member
  · exact keyed k d member

theorem Hub.Keyed.register (keyed : h.Keyed) (c : Conn) : (h.register c).1.Keyed := by
  cases result : (h.register c).2 with
  | error e =>
    have refused : h.register c = ((h.register c).1, .error e) := Prod.ext rfl result
    unfold Hub.Keyed
    rw [member_register_error refused]
    exact keyed
  | ok answer => exact keyed.register_ok (Prod.ext rfl result)

theorem Hub.Limited.insert (limited : h.Limited)
    (within : ∀ role, (r.members role).len ≤ h.opts.limit role) :
    Hub.Limited { h with rooms := h.rooms.insert userId r } := by
  intro user room found
  rw [StringMap.get?_insert] at found
  split at found
  · rw [← Option.some.inj found]
    exact within
  · exact limited user room found

theorem Hub.Limited.room (limited : h.Limited) (userId : String) (role : Role) :
    (((h.rooms.get? userId).getD {}).members role).len ≤ h.opts.limit role := by
  cases found : h.rooms.get? userId with
  | none => cases role <;> exact Nat.zero_le _
  | some r => exact limited userId r found role

theorem Hub.Limited.register (limited : h.Limited) (c : Conn) : (h.register c).1.Limited := by
  cases result : (h.register c).2 with
  | error e =>
    have refused : h.register c = ((h.register c).1, .error e) := Prod.ext rfl result
    rcases Hub.register_error refused with same | same
    · rw [same]
      exact limited
    · rw [same]
      exact limited.insert (limited.room c.userId)
  | ok answer =>
    have ok : h.register c = ((h.register c).1, .ok (answer.1, answer.2)) := Prod.ext rfl result
    obtain ⟨r, rfl, same, _, _, admitted⟩ := Hub.register_ok ok
    rw [same]
    refine limited.insert fun role => ?_
    have within := limited.room c.userId
    unfold Room.join
    cases eq : c.role <;> rw [eq] at admitted <;> cases role
    · exact StringMap.len_insert_le _ _ _ (within .device) admitted
    · exact within .client
    · exact within .device
    · exact StringMap.len_insert_le _ _ _ (within .client) admitted

theorem Room.len_remove_le (c : Conn) (role : Role) :
    (((r.remove c).getD r).members role).len ≤ (r.members role).len := by
  unfold Room.remove
  cases c.role <;> dsimp only <;> split <;> cases role <;>
    first | exact le_rfl | exact StringMap.len_erase_le _ _

theorem Hub.Limited.unregister (limited : h.Limited) (c : Conn) : (h.unregister c).1.Limited := by
  unfold Hub.unregister
  cases found : h.rooms.get? c.userId with
  | none => exact limited
  | some r =>
    dsimp only
    split
    · intro user room there
      rw [StringMap.get?_erase] at there
      split at there
      · cases there
      · exact limited user room there
    · exact limited.insert fun role =>
        (r.len_remove_le c role).trans (limited c.userId r found role)

theorem System.step_hub (s : System) (e : Event) :
    (s.step e).hub = s.hub ∨ (∃ c, (s.step e).hub = (s.hub.register c).1) ∨
      (∃ c, (s.step e).hub = (s.hub.unregister c).1) ∨
      (s.step e).hub = { s.hub with shutdown := true } := by
  cases e with
  | register c =>
    simp only [System.step]
    split
    · unfold System.register
      split
      · refine .inr (.inl ⟨c, ?_⟩)
        cases s.hub.register c with
        | mk hub result => cases result <;> rfl
      · exact .inl rfl
    · exact .inl rfl
  | unregister c =>
    simp only [System.step]
    split
    · exact .inr (.inr (.inl ⟨c, rfl⟩))
    · exact .inl rfl
  | shutdown => exact .inr (.inr (.inr rfl))
  | read c w =>
    simp only [System.step]
    split
    · unfold System.read
      split <;> exact .inl rfl
    · exact .inl rfl
  | _ =>
    simp only [System.step]
    split <;> exact .inl rfl

theorem Hub.register_opts (c : Conn) : (h.register c).1.opts = h.opts := by
  unfold Hub.register
  split
  · rfl
  · dsimp only
    split <;> split <;> rfl

theorem Hub.unregister_opts (c : Conn) : (h.unregister c).1.opts = h.opts := by
  unfold Hub.unregister
  split
  · rfl
  · dsimp only
    split <;> rfl

structure Hub.Sound (h : Hub) (opts : Options) : Prop where
  opts : h.opts = opts
  keyed : h.Keyed
  limited : h.Limited

theorem System.step_sound {s : System} {opts : Options} (sound : s.hub.Sound opts) (e : Event) :
    (s.step e).hub.Sound opts := by
  obtain ⟨rfl, keyed, limited⟩ := sound
  rcases s.step_hub e with same | ⟨c, same⟩ | ⟨c, same⟩ | same <;> rw [same]
  · exact ⟨rfl, keyed, limited⟩
  · exact ⟨s.hub.register_opts c, keyed.register c, limited.register c⟩
  · exact ⟨s.hub.unregister_opts c, keyed.unregister c, limited.unregister c⟩
  · exact ⟨rfl, keyed, limited⟩

theorem System.run_sound (opts : Options) (events : List Event) :
    (System.run opts events).hub.Sound opts := by
  have start : (System.initial opts).hub.Sound opts :=
    ⟨rfl, fun _ _ member => (by cases member), fun _ _ found => (by cases found)⟩
  exact History.foldl_keeps (I := fun s : System => s.hub.Sound opts) (P := fun _ _ => True)
    (fun _ e sound _ => step_sound sound e) start (History.along_of_forall fun _ _ => trivial)

end YunhouUsers.Relay
