import YunhouUsers.UsageTokens.Store

/-!
Deletions are remembered exactly.

The history of a run lists the deletions that committed. Watermarks and tombstones together cover
what the history covers and nothing else, so a bucket is refused for a deletion exactly if one
covers it.
-/

namespace YunhouUsers.UsageTokens

inductive Deletion where
  | all (clearedBefore : Int)
  | device (deviceId : DeviceId) (clearedBefore : Int)
  | window (deviceId : Option DeviceId) (buckets : Interval Int)
  | purge (deviceId : DeviceId)
deriving DecidableEq

/-- The buckets a deletion covers: before a watermark, inside a window, all of a purged device. -/
def Deletion.covers (deviceId : DeviceId) (start : Int) : Deletion → Bool
  | .all clearedBefore => start < clearedBefore
  | .device d clearedBefore => deviceId = d && start < clearedBefore
  | .window none buckets => start ∈ buckets
  | .window (some d) buckets => deviceId = d && start ∈ buckets
  | .purge d => deviceId = d

abbrev History := List (UserId × Deletion)

def Covered (history : History) (userId : UserId) (deviceId : DeviceId) (start : Int) : Bool :=
  history.any fun e => e.1 = userId && e.2.covers deviceId start

inductive Op where
  | ingest (input : UsageTokenIngestInput)
  | upsertDevice (deviceId : DeviceId)
  | deleteAll (clearedBefore : Int)
  | deleteByDevice (deviceId : DeviceId) (clearedBefore : Int)
  | deleteWindow (deviceId : Option DeviceId) (fromBucket toBucket : Int)
  | revokeDevice (now : Int) (deviceId : DeviceId) (purge : Bool)
deriving DecidableEq

def Db.step (db : Db) (userId : UserId) : Op → Except Err Db
  | .ingest input => (db.ingestBuckets userId input).map (·.1)
  | .upsertDevice deviceId => db.upsertDevice userId deviceId
  | .deleteAll clearedBefore => .ok (db.deleteAll userId clearedBefore).1
  | .deleteByDevice deviceId clearedBefore =>
    (db.deleteByDevice userId deviceId clearedBefore).map (·.1)
  | .deleteWindow deviceId fromBucket toBucket =>
    (db.deleteWindow userId deviceId fromBucket toBucket).map (·.1)
  | .revokeDevice now deviceId purge => db.revokeDevice now userId deviceId purge

def Op.deletions : Op → List Deletion
  | .ingest _ => []
  | .upsertDevice _ => []
  | .deleteAll clearedBefore => [.all clearedBefore]
  | .deleteByDevice deviceId clearedBefore => [.device deviceId clearedBefore]
  | .deleteWindow deviceId fromBucket toBucket => [.window deviceId ⟨fromBucket, toBucket⟩]
  | .revokeDevice _ deviceId purge => if purge then [.purge deviceId] else []

/-- The states reached by calls that commit; one that fails rolls back. -/
inductive Run : Db → History → Prop
  | start : Run {} []
  | step {db db' : Db} {history : History} {userId : UserId} {op : Op} (run : Run db history)
      (done : db.step userId op = .ok db') :
      Run db' (op.deletions.map (userId, ·) ++ history)

/-! ### What the tables remember -/

def Db.clearedBefore (db : Db) (userId : UserId) (deviceId : DeviceId) : Option Int :=
  (db.devices userId deviceId).bind (·.clearedBefore)

def Db.revoked (db : Db) (userId : UserId) (deviceId : DeviceId) : Bool :=
  ((db.devices userId deviceId).bind (·.revokedAt)).isSome

def Db.intervals (db : Db) (userId : UserId) (deviceId : Option DeviceId) : List (Interval Int) :=
  (db.tombstones.filter (Tombstone.sameScope userId deviceId)).map Tombstone.interval

structure Remembers (history : History) (db : Db) : Prop where
  all : ∀ u x, before (db.watermarks u) x ↔ ∃ c, (u, .all c) ∈ history ∧ x < c
  device : ∀ u d x, before (db.clearedBefore u d) x ↔ ∃ c, (u, .device d c) ∈ history ∧ x < c
  window : ∀ u scope x, (∃ i ∈ db.intervals u scope, x ∈ i)
    ↔ ∃ i, (u, .window scope i) ∈ history ∧ x ∈ i
  purged : ∀ u d, (u, .purge d) ∈ history → db.revoked u d = true
  apart : ∀ u scope, Interval.Apart (db.intervals u scope)

def Clean (history : History) (db : Db) : Prop :=
  ∀ r ∈ db.buckets, Covered history r.userId r.deviceId r.key.bucketStart = false

variable {db db' : Db} {history : History} {userId : UserId} {deviceId : DeviceId}

theorem covered_iff {start : Int} :
    Covered history userId deviceId start = true
      ↔ (∃ c, (userId, .all c) ∈ history ∧ start < c)
        ∨ (∃ c, (userId, .device deviceId c) ∈ history ∧ start < c)
        ∨ (∃ scope i, (scope = none ∨ scope = some deviceId)
          ∧ (userId, .window scope i) ∈ history ∧ start ∈ i)
        ∨ (userId, .purge deviceId) ∈ history := by
  simp only [Covered, List.any_eq_true, Bool.and_eq_true, decide_eq_true_eq, Prod.exists]
  constructor
  · rintro ⟨u, del, mem, rfl, covers⟩
    cases del with
    | all c => exact .inl ⟨c, mem, by simpa [Deletion.covers] using covers⟩
    | device d c =>
      obtain ⟨rfl, lt⟩ : deviceId = d ∧ start < c := by simpa [Deletion.covers] using covers
      exact .inr (.inl ⟨c, mem, lt⟩)
    | window scope i =>
      cases scope with
      | none =>
        have inside : start ∈ i := by simpa [Deletion.covers] using covers
        exact .inr (.inr (.inl ⟨none, i, .inl rfl, mem, inside⟩))
      | some d =>
        obtain ⟨rfl, inside⟩ : deviceId = d ∧ start ∈ i := by
          simpa [Deletion.covers] using covers
        exact .inr (.inr (.inl ⟨some deviceId, i, .inr rfl, mem, inside⟩))
    | purge d =>
      obtain rfl : deviceId = d := by simpa [Deletion.covers] using covers
      exact .inr (.inr (.inr mem))
  · rintro (⟨c, mem, lt⟩ | ⟨c, mem, lt⟩ | ⟨scope, i, applies, mem, inside⟩ | mem)
    · exact ⟨userId, _, mem, rfl, by simpa [Deletion.covers] using lt⟩
    · exact ⟨userId, _, mem, rfl, by simpa [Deletion.covers] using lt⟩
    · refine ⟨userId, _, mem, rfl, ?_⟩
      rcases applies with rfl | rfl
      · simpa [Deletion.covers] using inside
      · simpa [Deletion.covers] using inside
    · exact ⟨userId, _, mem, rfl, by simp [Deletion.covers]⟩

theorem Remembers.congr (remembers : Remembers history db)
    (watermarks : db'.watermarks = db.watermarks) (cleared : db'.clearedBefore = db.clearedBefore)
    (tombstones : db'.tombstones = db.tombstones) (revoked : db'.revoked = db.revoked) :
    Remembers history db' := by
  have intervals : db'.intervals = db.intervals := by
    funext u scope
    rw [Db.intervals, Db.intervals, tombstones]
  constructor
  · rw [watermarks]
    exact remembers.all
  · rw [cleared]
    exact remembers.device
  · rw [intervals]
    exact remembers.window
  · rw [revoked]
    exact remembers.purged
  · rw [intervals]
    exact remembers.apart

/-! ### Marks -/

theorem before_advance (mark : Option Int) (c x : Int) :
    before (some (advance mark c)) x ↔ before mark x ∨ x < c := by
  cases mark with
  | none =>
    simp only [before, advance, Bool.false_eq_true, false_or]
    exact decide_eq_true_iff
  | some old => simp [before, advance]

theorem mark_cons {α : Type} {P Q : α → Prop} {a : α} :
    (∃ x, P x ∧ Q x) ∨ Q a ↔ ∃ x, (x = a ∨ P x) ∧ Q x := by
  simp only [or_and_right, exists_or, exists_eq_left, or_comm]

theorem mem_cons_other {u : UserId} {del new : Deletion} (other : u = userId → del ≠ new) :
    (u, del) ∈ (userId, new) :: history ↔ (u, del) ∈ history := by
  simpa using fun same is => absurd is (other same)

theorem Remembers.deleteAll (remembers : Remembers history db) (c : Int) :
    Remembers ((userId, .all c) :: history) (db.deleteAll userId c).1 where
  all u x := by
    by_cases same : u = userId
    · subst same
      simp only [Db.deleteAll, Db.deleteBuckets, if_true, before_advance, remembers.all,
        List.mem_cons, Prod.mk.injEq, true_and, Deletion.all.injEq, mark_cons]
    · simp [Db.deleteAll, Db.deleteBuckets, same, remembers.all]
  device u d x :=
    (remembers.device u d x).trans (by simp)
  window u scope x :=
    (remembers.window u scope x).trans (by simp)
  purged u d mem := remembers.purged u d (by simpa using mem)
  apart := remembers.apart

@[simp] theorem clearedBefore_setDevice (u : UserId) (d : DeviceId) (device : UsageDevice) :
    (db.setDevice userId deviceId device).clearedBefore u d
      = if u = userId ∧ d = deviceId then device.clearedBefore else db.clearedBefore u d := by
  simp only [Db.clearedBefore, Db.setDevice]
  split
  · rfl
  · rfl

@[simp] theorem revoked_setDevice (u : UserId) (d : DeviceId) (device : UsageDevice) :
    (db.setDevice userId deviceId device).revoked u d
      = if u = userId ∧ d = deviceId then device.revokedAt.isSome else db.revoked u d := by
  simp only [Db.revoked, Db.setDevice]
  split
  · rfl
  · rfl

variable {device : UsageDevice}

theorem clearedBefore_setDevice_same
    (same : device.clearedBefore = db.clearedBefore userId deviceId) :
    (db.setDevice userId deviceId device).clearedBefore = db.clearedBefore := by
  funext u d
  rw [clearedBefore_setDevice]
  split_ifs with here
  · rw [same, here.1, here.2]
  · rfl

theorem revoked_setDevice_same
    (same : device.revokedAt.isSome = db.revoked userId deviceId) :
    (db.setDevice userId deviceId device).revoked = db.revoked := by
  funext u d
  rw [revoked_setDevice]
  split_ifs with here
  · rw [same, here.1, here.2]
  · rfl

theorem device_marks (db : Db) (userId : UserId) (deviceId : DeviceId) :
    ((db.devices userId deviceId).getD {}).clearedBefore = db.clearedBefore userId deviceId
      ∧ ((db.devices userId deviceId).getD {}).revokedAt.isSome = db.revoked userId deviceId := by
  rw [Db.clearedBefore, Db.revoked]
  cases db.devices userId deviceId with
  | none => exact ⟨rfl, rfl⟩
  | some device => exact ⟨rfl, rfl⟩

theorem Remembers.seen (remembers : Remembers history db) :
    Remembers history
      (db.setDevice userId deviceId ((db.devices userId deviceId).getD {})) := by
  obtain ⟨cleared, revoked⟩ := device_marks db userId deviceId
  exact remembers.congr rfl (clearedBefore_setDevice_same cleared) rfl
    (revoked_setDevice_same revoked)

theorem Remembers.deleteByDevice (remembers : Remembers history db)
    (found : db.devices userId deviceId = some device) (c : Int) :
    Remembers ((userId, .device deviceId c) :: history)
      (db.setDevice userId deviceId
        { device with clearedBefore := some (advance device.clearedBefore c) }) where
  all u x :=
    (remembers.all u x).trans (by simp)
  device u d x := by
    rw [clearedBefore_setDevice]
    split
    · rename_i same
      obtain ⟨rfl, rfl⟩ := same
      have marked := remembers.device u d x
      rw [Db.clearedBefore, found] at marked
      simp only [before_advance, List.mem_cons, Prod.mk.injEq, true_and, Deletion.device.injEq]
      rw [show device.clearedBefore = (some device).bind (·.clearedBefore) from rfl, marked,
        mark_cons]
    · rename_i other
      have new (c' : Int) : u = userId → Deletion.device d c' ≠ .device deviceId c := by
        rintro rfl ⟨⟩
        exact other ⟨rfl, rfl⟩
      simp only [mem_cons_other (new _)]
      exact remembers.device u d x
  window u scope x :=
    (remembers.window u scope x).trans (by simp)
  purged u d mem := by
    rw [revoked_setDevice_same (by simp [Db.revoked, found])]
    exact remembers.purged u d (by simpa using mem)
  apart := remembers.apart

theorem Remembers.revokeDevice (remembers : Remembers history db)
    (found : db.devices userId deviceId = some device) (now : Int) (purge : Bool) :
    Remembers ((Op.revokeDevice now deviceId purge).deletions.map (userId, ·) ++ history)
      (db.setDevice userId deviceId { device with revokedAt := some now }) := by
  have cleared : (db.setDevice userId deviceId { device with revokedAt := some now }).clearedBefore
      = db.clearedBefore := clearedBefore_setDevice_same (by simp [Db.clearedBefore, found])
  have still : ∀ u d, db.revoked u d = true →
      (db.setDevice userId deviceId { device with revokedAt := some now }).revoked u d = true := by
    intro u d gone
    rw [revoked_setDevice]
    split
    · rfl
    · exact gone
  have others : ∀ u del, (∀ d, del ≠ Deletion.purge d) →
      ((u, del) ∈ (Op.revokeDevice now deviceId purge).deletions.map (userId, ·) ++ history
        ↔ (u, del) ∈ history) := by
    intro u del plain
    cases purge with
    | false => simp [Op.deletions]
    | true =>
      simp only [Op.deletions, if_true, List.map_cons, List.map_nil, List.cons_append,
        List.nil_append, List.mem_cons, Prod.mk.injEq, or_iff_right_iff_imp]
      rintro ⟨-, rfl⟩
      exact absurd rfl (plain deviceId)
  constructor
  · intro u x
    simp only [fun c => others u (.all c) (fun _ same => by cases same)]
    exact remembers.all u x
  · intro u d x
    rw [cleared]
    simp only [fun c => others u (.device d c) (fun _ same => by cases same)]
    exact remembers.device u d x
  · intro u scope x
    simp only [fun i => others u (.window scope i) (fun _ same => by cases same)]
    exact remembers.window u scope x
  · intro u d mem
    rcases List.mem_append.mp mem with new | old
    · cases purge with
      | false => simp [Op.deletions] at new
      | true =>
        obtain ⟨rfl, rfl⟩ : u = userId ∧ d = deviceId := by simpa [Op.deletions] using new
        simp
    · exact still u d (remembers.purged u d old)
  · exact remembers.apart

variable {scope : Option DeviceId} {fromBucket toBucket : Int}

theorem deleteWindow_ok {n : Nat}
    (done : db.deleteWindow userId scope fromBucket toBucket = .ok (db', n)) :
    ∃ merged : Interval Int,
      merged = ((db.intervals userId scope).filter (Interval.meets ⟨fromBucket, toBucket⟩)).foldl
        Interval.hull ⟨fromBucket, toBucket⟩
      ∧ db' = { db with
        buckets := db.buckets.filter fun r => !r.inWindow userId scope ⟨fromBucket, toBucket⟩
        tombstones := db.tombstones.filter
            (fun t => !t.overlaps userId scope ⟨fromBucket, toBucket⟩)
          ++ [⟨userId, scope, merged.lo, merged.hi⟩] } := by
  have read : (db.tombstones.filter
        (Tombstone.overlaps userId scope ⟨fromBucket, toBucket⟩)).map Tombstone.interval
      = (db.intervals userId scope).filter (Interval.meets ⟨fromBucket, toBucket⟩) := by
    rw [Db.intervals, List.filter_map, List.filter_filter]
    congr 1
    apply List.filter_congr
    intro t _
    exact Bool.and_comm _ _
  simp only [Db.deleteWindow, Db.deleteBuckets, read] at done
  split at done
  · obtain ⟨rfl, -⟩ := Prod.mk.inj (Except.ok.inj done)
    exact ⟨_, rfl, rfl⟩
  · cases done

theorem intervals_deleteWindow {n : Nat}
    (done : db.deleteWindow userId scope fromBucket toBucket = .ok (db', n)) (u : UserId)
    (other : Option DeviceId) :
    db'.intervals u other
      = if u = userId ∧ other = scope then
          Interval.absorb ⟨fromBucket, toBucket⟩ (db.intervals userId scope)
        else db.intervals u other := by
  obtain ⟨merged, gathered, rfl⟩ := deleteWindow_ok done
  rw [Db.intervals, List.filter_append, List.map_append, List.filter_filter]
  split
  · rename_i same
    obtain ⟨rfl, rfl⟩ := same
    rw [Interval.absorb, ← gathered]
    congr 1
    · rw [Db.intervals, List.filter_map, List.filter_filter]
      congr 1
      apply List.filter_congr
      intro t _
      cases here : t.sameScope u other with
      | false => simp
      | true => simp [Tombstone.overlaps, here]
    · simp [Tombstone.sameScope, Tombstone.interval]
  · rename_i elsewhere
    have new : Tombstone.sameScope u other ⟨userId, scope, merged.lo, merged.hi⟩ = false := by
      simp only [Tombstone.sameScope, Bool.and_eq_false_iff, decide_eq_false_iff_not]
      by_cases same : userId = u
      · exact .inr fun same' => elsewhere ⟨same.symm, same'.symm⟩
      · exact .inl same
    rw [List.filter_cons_of_neg (by simp [new]), List.filter_nil, List.map_nil, List.append_nil,
      Db.intervals]
    congr 1
    apply List.filter_congr
    intro t _
    cases here : t.sameScope u other with
    | false => simp
    | true =>
      have untouched : t.sameScope userId scope = false := by
        simp only [Tombstone.sameScope, Bool.and_eq_true, decide_eq_true_eq] at here
        obtain ⟨rfl, rfl⟩ := here
        simp only [Tombstone.sameScope, Bool.and_eq_false_iff, decide_eq_false_iff_not]
        by_cases same : t.userId = userId
        · exact .inr fun same' => elsewhere ⟨same, same'⟩
        · exact .inl same
      simp [Tombstone.overlaps, untouched]

theorem Remembers.deleteWindow (remembers : Remembers history db) {n : Nat}
    (done : db.deleteWindow userId scope fromBucket toBucket = .ok (db', n)) :
    Remembers ((userId, .window scope ⟨fromBucket, toBucket⟩) :: history) db' := by
  have intervals := intervals_deleteWindow done
  obtain ⟨merged, -, rfl⟩ := deleteWindow_ok done
  constructor
  · exact fun u x => (remembers.all u x).trans (by simp)
  · exact fun u d x => (remembers.device u d x).trans (by simp)
  · intro u other x
    rw [intervals]
    split
    · rename_i same
      obtain ⟨rfl, rfl⟩ := same
      rw [Interval.mem_absorb, remembers.window, or_comm, mark_cons]
      simp only [List.mem_cons, Prod.mk.injEq, true_and, Deletion.window.injEq]
    · rename_i elsewhere
      have new (i : Interval Int) :
          u = userId → Deletion.window other i ≠ .window scope ⟨fromBucket, toBucket⟩ := by
        rintro rfl ⟨⟩
        exact elsewhere ⟨rfl, rfl⟩
      simp only [mem_cons_other (new _)]
      exact remembers.window u other x
  · exact fun u d mem => remembers.purged u d (by simpa using mem)
  · intro u other
    rw [intervals]
    split
    · exact (remembers.apart userId scope).absorb _
    · exact remembers.apart u other

/-! ### Buckets -/

variable {rows : List BucketRow}

theorem mem_upsertRow {row r : BucketRow} (mem : r ∈ upsertRow rows row) : r ∈ rows ∨ r = row := by
  rcases List.mem_append.mp mem with old | new
  · exact .inl (List.mem_filter.mp old).1
  · exact .inr (List.mem_singleton.mp new)

theorem mem_upsertRow_of_ne {row r : BucketRow} (mem : r ∈ rows)
    (differ : r.key ≠ row.key) : r ∈ upsertRow rows row := by
  apply List.mem_append_left
  apply List.mem_filter.mpr
  exact ⟨mem, by simp [differ]⟩

def rowOf (userId : UserId) (deviceId : DeviceId) (b : UsageTokenBucket) : BucketRow :=
  ⟨userId, deviceId, b.key, b.counts⟩

theorem mem_usageTokenUpsert {rows' : List BucketRow} {buckets : List UsageTokenBucket}
    (done : usageTokenUpsert rows userId deviceId buckets = .ok rows') :
    (∀ r ∈ rows', r ∈ rows ∨ ∃ b ∈ buckets, r = rowOf userId deviceId b)
      ∧ ∀ b ∈ buckets, rowOf userId deviceId b ∈ rows' := by
  unfold usageTokenUpsert at done
  split at done
  · rename_i distinct
    rw [← Except.ok.inj done]
    clear done
    constructor
    · induction buckets generalizing rows with
      | nil => exact fun r mem => .inl mem
      | cons b buckets ih =>
        intro r mem
        rcases ih (List.nodup_cons.mp distinct).2 r mem with old | ⟨b', mem', same⟩
        · rcases mem_upsertRow old with older | same
          · exact .inl older
          · exact .inr ⟨b, List.mem_cons_self, same⟩
        · exact .inr ⟨b', List.mem_cons_of_mem _ mem', same⟩
    · intro b mem
      -- later buckets have other keys and leave the row alone
      have kept : ∀ (later : List UsageTokenBucket) (rows : List BucketRow) (row : BucketRow),
          row ∈ rows → (∀ b ∈ later, row.key ≠ b.key) →
          row ∈ later.foldl (fun rows b => upsertRow rows ⟨userId, deviceId, b.key, b.counts⟩)
            rows := by
        intro later
        induction later with
        | nil => exact fun rows row mem _ => mem
        | cons b later ih =>
          intro rows row mem differ
          apply ih _ _ (mem_upsertRow_of_ne mem (differ b List.mem_cons_self))
          exact fun b' mem' => differ b' (List.mem_cons_of_mem _ mem')
      induction buckets generalizing rows with
      | nil => cases mem
      | cons first buckets ih =>
        rw [List.map_cons, List.nodup_cons] at distinct
        rcases List.mem_cons.mp mem with rfl | later
        · apply kept buckets _ _ (List.mem_append_right _ (List.mem_singleton.mpr rfl))
          intro b' mem' same
          exact distinct.1 (List.mem_map.mpr ⟨b', mem', same.symm⟩)
        · exact ih distinct.2 later
  · cases done

variable {rest : List UsageTokenBucket}

theorem mem_startRange {b c : UsageTokenBucket}
    (mem : c ∈ b :: rest) : c.key.bucketStart ∈ startRange b rest := by
  apply Interval.mem_foldl_hull_of
  rcases List.mem_cons.mp mem with rfl | later
  · exact .inl Interval.mem_point
  · exact .inr ⟨_, List.mem_map.mpr ⟨c, later, rfl⟩, Interval.mem_point⟩

theorem Remembers.cleared_iff (remembers : Remembers history db)
    (active : db.revoked userId deviceId = false) {range : Interval Int} {start : Int}
    (inside : start ∈ range) :
    usageBucketCleared start (db.watermarks userId) (db.clearedBefore userId deviceId)
        (db.tombstones.filter fun t =>
          t.userId = userId && (t.deviceId = none || t.deviceId = some deviceId)
            && t.fromBucket ≤ range.hi && t.toBucket ≥ range.lo)
      = Covered history userId deviceId start := by
  have kept : (userId, .purge deviceId) ∉ history := by
    intro purged
    rw [remembers.purged _ _ purged] at active
    cases active
  rw [Bool.eq_iff_iff, covered_iff, usageBucketCleared, Bool.or_eq_true, Bool.or_eq_true,
    remembers.all, remembers.device, or_assoc, iff_false_intro kept, or_false]
  refine or_congr Iff.rfl (or_congr Iff.rfl ?_)
  simp only [List.any_eq_true, List.mem_filter, Bool.and_eq_true, Bool.or_eq_true,
    decide_eq_true_eq, Bool.not_eq_true', decide_eq_false_iff_not, Int.not_lt]
  constructor
  · rintro ⟨t, ⟨mem, ⟨⟨owner, applies⟩, -⟩, -⟩, lower, upper⟩
    have held : ∃ i ∈ db.intervals userId t.deviceId, start ∈ i := by
      refine ⟨t.interval, List.mem_map.mpr ⟨t, List.mem_filter.mpr ⟨mem, ?_⟩, rfl⟩, lower, upper⟩
      simp [Tombstone.sameScope, owner]
    obtain ⟨i, deleted, covers⟩ := (remembers.window userId t.deviceId start).mp held
    exact ⟨t.deviceId, i, applies, deleted, covers⟩
  · rintro ⟨scope, i, applies, deleted, covers⟩
    obtain ⟨_, held, lower, upper⟩ :=
      (remembers.window userId scope start).mpr ⟨i, deleted, covers⟩
    obtain ⟨t, in_scope, rfl⟩ := List.mem_map.mp held
    obtain ⟨mem, same⟩ := List.mem_filter.mp in_scope
    simp only [Tombstone.sameScope, Bool.and_eq_true, decide_eq_true_eq] at same
    obtain ⟨owner, rfl⟩ := same
    exact ⟨t, ⟨mem, ⟨⟨owner, applies⟩, lower.trans inside.2⟩, inside.1.trans upper⟩, lower, upper⟩

structure Ingested (history : History) (db : Db) (userId : UserId)
    (input : UsageTokenIngestInput) (db' : Db) (result : UsageIngestResult) : Prop where
  discarded : result.discarded = (input.buckets.filter fun b =>
    Covered history userId input.deviceId b.key.bucketStart).map (·.index)
  rows : ∀ r ∈ db'.buckets, r ∈ db.buckets ∨ ∃ b ∈ input.buckets,
    Covered history userId input.deviceId b.key.bucketStart = false
      ∧ r = rowOf userId input.deviceId b
  stored : ∀ b ∈ input.buckets,
    Covered history userId input.deviceId b.key.bucketStart = false →
      rowOf userId input.deviceId b ∈ db'.buckets

variable {input : UsageTokenIngestInput}

theorem ingestBuckets_eq (remembers : Remembers history db)
    {b : UsageTokenBucket} (batch : input.buckets = b :: rest) :
    db.ingestBuckets userId input =
      if db.revoked userId input.deviceId then
        .error .deviceRevoked
      else
        match usageTokenUpsert db.buckets userId input.deviceId (input.buckets.filter fun b =>
            !Covered history userId input.deviceId b.key.bucketStart) with
        | .error err => .error err
        | .ok rows => .ok
          ({ db.setDevice userId input.deviceId
                ((db.devices userId input.deviceId).getD {}) with buckets := rows },
            { accepted := (input.buckets.filter fun b =>
                !Covered history userId input.deviceId b.key.bucketStart).length
              updated := (input.buckets.filter fun b =>
                !Covered history userId input.deviceId b.key.bucketStart).length
              discarded := (input.buckets.filter fun b =>
                Covered history userId input.deviceId b.key.bucketStart).map (·.index) }) := by
  rw [Db.ingestBuckets]
  split
  · rename_i empty
    rw [batch] at empty
    cases empty
  · rename_i b' rest' batch'
    rw [batch] at batch'
    obtain ⟨rfl, rfl⟩ := List.cons.inj batch'
    obtain ⟨cleared, revoked⟩ := device_marks db userId input.deviceId
    simp only [cleared, revoked]
    by_cases gone : db.revoked userId input.deviceId = true
    · rw [if_pos gone, if_pos gone]
    · rw [if_neg gone, if_neg gone]
      have active : db.revoked userId input.deviceId = false := by simpa using gone
      have same : ∀ c ∈ input.buckets, _ = Covered history userId input.deviceId
          c.key.bucketStart := fun c mem =>
        remembers.cleared_iff active (mem_startRange (batch ▸ mem))
      rewrite [List.filter_congr same, List.filter_congr fun c mem => congrArg (!·) (same c mem)]
      rfl

theorem Remembers.ingestBuckets (remembers : Remembers history db) {result : UsageIngestResult}
    (done : db.ingestBuckets userId input = .ok (db', result)) :
    Remembers history db' ∧ Ingested history db userId input db' result := by
  cases batch : input.buckets with
  | nil =>
    rw [Db.ingestBuckets, batch] at done
    obtain ⟨rfl, rfl⟩ := Prod.mk.inj (Except.ok.inj done)
    refine ⟨remembers, ?_, ?_, ?_⟩
    · rw [batch]
      rfl
    · exact fun r mem => .inl mem
    · rw [batch]
      nofun
  | cons b rest =>
    rw [ingestBuckets_eq remembers batch] at done
    split at done
    · cases done
    · split at done
      · cases done
      · rename_i rows written
        obtain ⟨rfl, rfl⟩ := Prod.mk.inj (Except.ok.inj done)
        obtain ⟨old_or_new, stored⟩ := mem_usageTokenUpsert written
        refine ⟨remembers.seen.congr rfl rfl rfl rfl, rfl, ?_, ?_⟩
        · intro r mem
          rcases old_or_new r mem with old | ⟨b, kept, same⟩
          · exact .inl old
          · obtain ⟨given, clear⟩ := List.mem_filter.mp kept
            exact .inr ⟨b, given, by simpa using clear, same⟩
        · intro b mem clear
          exact stored b (List.mem_filter.mpr ⟨mem, by simp [clear]⟩)

theorem Covered.cons {del : Deletion} {u : UserId} {d : DeviceId} {start : Int} :
    Covered ((userId, del) :: history) u d start
      = (decide (userId = u) && del.covers d start || Covered history u d start) := rfl

theorem Clean.delete (clean : Clean history db) {del : Deletion} {p : BucketRow → Bool}
    (rows : db'.buckets = db.buckets.filter fun r => !p r)
    (covers : ∀ r ∈ db.buckets, r.userId = userId → del.covers r.deviceId r.key.bucketStart = true →
      p r = true) :
    Clean ((userId, del) :: history) db' := by
  intro r mem
  rw [rows] at mem
  obtain ⟨old, left⟩ := List.mem_filter.mp mem
  rw [Covered.cons, clean r old, Bool.or_false, Bool.and_eq_false_iff, decide_eq_false_iff_not]
  by_cases owner : userId = r.userId
  · apply Or.inr
    by_contra covered
    rw [covers r old owner.symm (by simpa using covered)] at left
    cases left
  · exact .inl owner

/-! ### Runs -/

theorem ok_of_map_fst {α : Type} {outcome : Except Err (Db × α)}
    (done : outcome.map (·.1) = .ok db') : ∃ result, outcome = .ok (db', result) := by
  cases outcome with
  | error err => cases done
  | ok pair =>
    cases done
    exact ⟨pair.2, rfl⟩

theorem Run.remembers_clean (run : Run db history) : Remembers history db ∧ Clean history db := by
  induction run with
  | start =>
    refine ⟨⟨?_, ?_, ?_, nofun, fun _ _ => .nil⟩, nofun⟩
    · simp [before]
    · simp [before, Db.clearedBefore]
    · simp [Db.intervals]
  | step run done ih =>
    rename_i op
    obtain ⟨remembers, clean⟩ := ih
    cases op with
    | ingest input =>
      obtain ⟨result, done⟩ := ok_of_map_fst done
      obtain ⟨remembers', ingested⟩ := remembers.ingestBuckets done
      refine ⟨remembers', fun r mem => ?_⟩
      rcases ingested.rows r mem with old | ⟨b, -, clear, rfl⟩
      · exact clean r old
      · exact clear
    | upsertDevice deviceId =>
      simp only [Db.step, Db.upsertDevice] at done
      split at done
      · cases done
      · cases done
        exact ⟨remembers.seen, clean⟩
    | deleteAll clearedBefore =>
      cases done
      refine ⟨remembers.deleteAll clearedBefore, clean.delete rfl ?_⟩
      intro r _ owner _
      simp [owner]
    | deleteByDevice deviceId clearedBefore =>
      simp only [Db.step, Db.deleteByDevice] at done
      split at done
      · cases done
      · rename_i device found
        cases done
        refine ⟨(remembers.deleteByDevice found clearedBefore).congr rfl rfl rfl rfl,
          clean.delete rfl ?_⟩
        intro r _ owner covered
        simp only [Deletion.covers, Bool.and_eq_true, decide_eq_true_eq] at covered
        simp [owner, covered.1]
    | deleteWindow scope fromBucket toBucket =>
      obtain ⟨n, done⟩ := ok_of_map_fst done
      refine ⟨remembers.deleteWindow done, ?_⟩
      obtain ⟨merged, -, rfl⟩ := deleteWindow_ok done
      apply clean.delete rfl
      intro r _ owner covered
      cases scope with
      | none =>
        have inside : r.key.bucketStart ∈ (⟨fromBucket, toBucket⟩ : Interval Int) := by
          simpa [Deletion.covers] using covered
        simp [BucketRow.inWindow, owner, inside.1, inside.2]
      | some d =>
        obtain ⟨rfl, inside⟩ : r.deviceId = d
            ∧ r.key.bucketStart ∈ (⟨fromBucket, toBucket⟩ : Interval Int) := by
          simpa [Deletion.covers] using covered
        simp [BucketRow.inWindow, owner, inside.1, inside.2]
    | revokeDevice now deviceId purge =>
      simp only [Db.step, Db.revokeDevice] at done
      split at done
      · cases done
      · rename_i device found
        have remembers' := remembers.revokeDevice found now purge
        cases purge with
        | false =>
          cases done
          exact ⟨remembers', clean⟩
        | true =>
          cases done
          refine ⟨remembers'.congr rfl rfl rfl rfl, clean.delete rfl ?_⟩
          intro r _ owner covered
          have same : r.deviceId = deviceId := by simpa [Deletion.covers] using covered
          simp [owner, same]

/-- In every state a run reaches: no stored bucket is covered by a deletion; an ingest for a device
that is not revoked goes through, discards the buckets a deletion covers and stores the others;
the tombstones of one scope are disjoint; and they cover what the window deletions of that scope
covered. -/
theorem deletions_exact (run : Run db history) :
    (∀ r ∈ db.buckets, Covered history r.userId r.deviceId r.key.bucketStart = false)
      ∧ (∀ u input, db.revoked u input.deviceId = false → (input.buckets.map (·.key)).Nodup →
        ∃ db' result, db.ingestBuckets u input = .ok (db', result)
          ∧ result.discarded = (input.buckets.filter fun b =>
              Covered history u input.deviceId b.key.bucketStart).map (·.index)
          ∧ ∀ b ∈ input.buckets, Covered history u input.deviceId b.key.bucketStart = false →
              ⟨u, input.deviceId, b.key, b.counts⟩ ∈ db'.buckets)
      ∧ (∀ u scope, Interval.Apart (db.intervals u scope))
      ∧ (∀ u scope x, (∃ i ∈ db.intervals u scope, x ∈ i)
        ↔ ∃ i, (u, .window scope i) ∈ history ∧ x ∈ i) := by
  obtain ⟨remembers, clean⟩ := run.remembers_clean
  refine ⟨clean, ?_, remembers.apart, remembers.window⟩
  intro u input active distinct
  have goes_through : ∃ db' result, db.ingestBuckets u input = .ok (db', result) := by
    cases batch : input.buckets with
    | nil => exact ⟨db, {}, by rw [Db.ingestBuckets, batch]⟩
    | cons b rest =>
      have apart : ((input.buckets.filter fun b =>
          !Covered history u input.deviceId b.key.bucketStart).map (·.key)).Nodup :=
        distinct.sublist (List.filter_sublist.map _)
      rw [ingestBuckets_eq remembers batch, if_neg (by simp [active]), usageTokenUpsert,
        if_pos apart]
      exact ⟨_, _, rfl⟩
  obtain ⟨db', result, done⟩ := goes_through
  have ingested := (remembers.ingestBuckets done).2
  exact ⟨db', result, done, ingested.discarded, ingested.stored⟩

def upload (start : Int) : UsageTokenIngestInput where
  deviceId := "d"
  buckets := [⟨0, ⟨start, .hour, .chat, "a", "p", "m"⟩, ⟨1, 1, 2, 1⟩⟩]

/-- A bucket that a merged window covers is discarded when it is uploaded again, the one after the
window is not. -/
theorem reupload_discarded : ∃ db history, Run db history
    ∧ (∃ db' result, db.ingestBuckets 1 (upload 30) = .ok (db', result) ∧ result.discarded = [0])
    ∧ ∃ db' result, db.ingestBuckets 1 (upload 41) = .ok (db', result) ∧ result.discarded = [] := by
  have uploaded : Run _ _ :=
    .step .start (show Db.step {} 1 (.ingest (upload 30)) = .ok _ from rfl)
  have once : Run _ _ := .step uploaded (show Db.step _ 1 (.deleteWindow none 10 20) = .ok _ from rfl)
  have twice : Run _ _ := .step once (show Db.step _ 1 (.deleteWindow none 20 40) = .ok _ from rfl)
  obtain ⟨-, ingests, -⟩ := deletions_exact twice
  obtain ⟨db₁, result₁, done₁, discarded₁, -⟩ := ingests 1 (upload 30) rfl (by decide)
  obtain ⟨db₂, result₂, done₂, discarded₂, -⟩ := ingests 1 (upload 41) rfl (by decide)
  exact ⟨_, _, twice, ⟨db₁, result₁, done₁, discarded₁⟩, ⟨db₂, result₂, done₂, discarded₂⟩⟩

end YunhouUsers.UsageTokens
