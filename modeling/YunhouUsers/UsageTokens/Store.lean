import YunhouUsers.Intervals

/-!
Client-reported token usage (`internal/repo/usage_token_repo.go`, migration 047).

Every method that reads or writes deletions takes the advisory lock of its user first and runs in
one transaction, so it is one function on the tables. Instants are microseconds since the epoch.
Tables with a primary key are functions of it; a tombstone is named by the row itself where the
code uses its `id`.
-/

namespace YunhouUsers.UsageTokens

abbrev UserId := Nat
abbrev DeviceId := String

inductive BucketSize where
  | hour
  | day
deriving DecidableEq

inductive Source where
  | chat
  | gateway
deriving DecidableEq

/-- The part of the unique key of `usage_token_buckets` after user and device. -/
structure BucketKey where
  bucketStart : Int
  bucketSize : BucketSize
  source : Source
  agentKey : String
  providerKey : String
  modelKey : String
deriving DecidableEq

structure Counts where
  promptTokens : Int
  completionTokens : Int
  totalTokens : Int
  requests : Int
deriving DecidableEq

structure UsageTokenBucket where
  index : Nat
  key : BucketKey
  counts : Counts
deriving DecidableEq

structure UsageTokenIngestInput where
  deviceId : DeviceId
  buckets : List UsageTokenBucket
deriving DecidableEq

structure UsageIngestResult where
  accepted : Nat := 0
  updated : Nat := 0
  /-- The indices, each with the reason `cleared`. -/
  discarded : List Nat := []
deriving DecidableEq

structure BucketRow where
  userId : UserId
  deviceId : DeviceId
  key : BucketKey
  counts : Counts
deriving DecidableEq

structure UsageDevice where
  clearedBefore : Option Int := none
  revokedAt : Option Int := none
deriving DecidableEq

structure Tombstone where
  userId : UserId
  /-- `none` stands for all devices of the user. -/
  deviceId : Option DeviceId
  fromBucket : Int
  toBucket : Int
deriving DecidableEq

structure Db where
  buckets : List BucketRow := []
  devices : UserId → DeviceId → Option UsageDevice := fun _ _ => none
  /-- `usage_token_watermarks.cleared_before`. -/
  watermarks : UserId → Option Int := fun _ => none
  tombstones : List Tombstone := []

inductive Err where
  | deviceNotFound
  | deviceRevoked
  /-- `ON CONFLICT DO UPDATE` meets one row twice. -/
  | cardinalityViolation
  /-- `CHECK (from_bucket <= to_bucket)`. -/
  | checkViolation
deriving DecidableEq

variable (db : Db)

def Db.setDevice (userId : UserId) (deviceId : DeviceId) (device : UsageDevice) : Db :=
  { db with devices := fun u d =>
      if u = userId ∧ d = deviceId then some device else db.devices u d }

def Tombstone.interval (t : Tombstone) : Interval Int := ⟨t.fromBucket, t.toBucket⟩

def before (mark : Option Int) (start : Int) : Bool :=
  match mark with
  | none => false
  | some cleared => start < cleared

def usageBucketCleared (start : Int) (userCleared deviceCleared : Option Int)
    (tombstones : List Tombstone) : Bool :=
  before userCleared start || before deviceCleared start
    || tombstones.any fun t => !(start < t.fromBucket) && !(start > t.toBucket)

def upsertRow (rows : List BucketRow) (row : BucketRow) : List BucketRow :=
  rows.filter (fun r =>
    !(r.userId = row.userId && r.deviceId = row.deviceId && r.key = row.key)) ++ [row]

def usageTokenUpsert (rows : List BucketRow) (userId : UserId) (deviceId : DeviceId)
    (buckets : List UsageTokenBucket) : Except Err (List BucketRow) :=
  if (buckets.map (·.key)).Nodup then
    .ok (buckets.foldl (fun rows b => upsertRow rows ⟨userId, deviceId, b.key, b.counts⟩) rows)
  else
    .error .cardinalityViolation

def startRange (b : UsageTokenBucket) (rest : List UsageTokenBucket) : Interval Int :=
  (rest.map fun b => .point b.key.bucketStart).foldl Interval.hull (.point b.key.bucketStart)

def Db.ingestBuckets (userId : UserId) (input : UsageTokenIngestInput) :
    Except Err (Db × UsageIngestResult) :=
  match input.buckets with
  | [] => .ok (db, {})
  | b :: rest =>
    let device := (db.devices userId input.deviceId).getD {}
    if device.revokedAt.isSome then
      .error .deviceRevoked
    else
      let range := startRange b rest
      let tombstones := db.tombstones.filter fun t =>
        t.userId = userId && (t.deviceId = none || t.deviceId = some input.deviceId)
          && t.fromBucket ≤ range.hi && t.toBucket ≥ range.lo
      let cleared := fun b : UsageTokenBucket =>
        usageBucketCleared b.key.bucketStart (db.watermarks userId) device.clearedBefore tombstones
      let kept := input.buckets.filter fun b => !cleared b
      match usageTokenUpsert db.buckets userId input.deviceId kept with
      | .error err => .error err
      | .ok rows =>
        .ok ({ db.setDevice userId input.deviceId device with buckets := rows },
          { accepted := kept.length, updated := kept.length,
            discarded := (input.buckets.filter cleared).map (·.index) })

/-- `DELETE FROM usage_token_buckets WHERE p`, with the number of rows deleted. -/
def Db.deleteBuckets (p : BucketRow → Bool) : Db × Nat :=
  ({ db with buckets := db.buckets.filter fun r => !p r }, (db.buckets.filter p).length)

/-- `GREATEST` of a mark that may be missing and a new one. -/
def advance (mark : Option Int) (clearedBefore : Int) : Int :=
  match mark with
  | none => clearedBefore
  | some old => max old clearedBefore

def Db.deleteAll (userId : UserId) (clearedBefore : Int) : Db × Nat :=
  let (db, deleted) := db.deleteBuckets fun r => r.userId = userId
  ({ db with watermarks := fun u =>
      if u = userId then some (advance (db.watermarks u) clearedBefore) else db.watermarks u },
    deleted)

def Db.deleteByDevice (userId : UserId) (deviceId : DeviceId) (clearedBefore : Int) :
    Except Err (Db × Nat) :=
  match db.devices userId deviceId with
  | none => .error .deviceNotFound
  | some device =>
    let db := db.setDevice userId deviceId
      { device with clearedBefore := some (advance device.clearedBefore clearedBefore) }
    .ok (db.deleteBuckets fun r => r.userId = userId && r.deviceId = deviceId)

/-- A row of the same user and scope, `device_id IS NOT DISTINCT FROM`. -/
def Tombstone.sameScope (userId : UserId) (deviceId : Option DeviceId) (t : Tombstone) : Bool :=
  t.userId = userId && t.deviceId = deviceId

def Tombstone.overlaps (userId : UserId) (deviceId : Option DeviceId) (window : Interval Int)
    (t : Tombstone) : Bool :=
  t.sameScope userId deviceId && window.meets t.interval

def BucketRow.inWindow (userId : UserId) (deviceId : Option DeviceId) (window : Interval Int)
    (r : BucketRow) : Bool :=
  r.userId = userId && r.key.bucketStart ≥ window.lo && r.key.bucketStart ≤ window.hi
    && (match deviceId with
      | none => true
      | some d => r.deviceId = d)

def Db.deleteWindow (userId : UserId) (deviceId : Option DeviceId)
    (fromBucket toBucket : Int) : Except Err (Db × Nat) :=
  let window : Interval Int := ⟨fromBucket, toBucket⟩
  let (db, deleted) := db.deleteBuckets (BucketRow.inWindow userId deviceId window)
  let overlaps := db.tombstones.filter (Tombstone.overlaps userId deviceId window)
  let merged := (overlaps.map Tombstone.interval).foldl Interval.hull window
  if merged.lo ≤ merged.hi then
    .ok ({ db with tombstones :=
        db.tombstones.filter (fun t => !t.overlaps userId deviceId window)
          ++ [⟨userId, deviceId, merged.lo, merged.hi⟩] }, deleted)
  else
    .error .checkViolation

def Db.upsertDevice (userId : UserId) (deviceId : DeviceId) : Except Err Db :=
  let device := (db.devices userId deviceId).getD {}
  if device.revokedAt.isSome then .error .deviceRevoked else .ok (db.setDevice userId deviceId device)

def Db.revokeDevice (now : Int) (userId : UserId) (deviceId : DeviceId) (purge : Bool) :
    Except Err Db :=
  match db.devices userId deviceId with
  | none => .error .deviceNotFound
  | some device =>
    let db := db.setDevice userId deviceId { device with revokedAt := some now }
    if purge then
      .ok (db.deleteBuckets fun r => r.userId = userId && r.deviceId = deviceId).1
    else
      .ok db

end YunhouUsers.UsageTokens
