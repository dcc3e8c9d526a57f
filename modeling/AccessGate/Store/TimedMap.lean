import AccessGate.Store.Time

/-!
# Maps whose entries live for a fixed time

An entry is *live* while its age does not exceed the map's time to live. An expired entry stays in
the list until something takes it out, but no look-up shows it:

* `get?` and `remove` take the entry they find out when it has expired;
* every insertion first sweeps, at most once in a quarter of the time to live (both in whole
  milliseconds since the map was made), and then, when the map is still full, sweeps again or
  evicts the oldest entry (`makeRoom`), even if its key is already there;
* `update` changes a value and never its age.

The entries stand in the order of their insertion, the oldest first.
-/

namespace AccessGate

/-- A value with its key and the instant of its insertion. -/
structure TimedEntry (κ ν : Type) where
  key : κ
  value : ν
  since : Time

/-- Entries in order of insertion, and when they were last swept, in milliseconds after
`created`. -/
structure TimedMap (κ ν : Type) where
  ttl : Time
  maxEntries : Nat
  created : Time
  lastSweep : Nat
  entries : List (TimedEntry κ ν)

namespace TimedMap

variable {κ ν : Type}

/-- The bound on entries where none is given. -/
def defaultMaxEntries : Nat := 100000

/-- A map made at the instant `now` that holds at least one entry. -/
def make (ttl : Time) (maxEntries : Nat) (now : Time) : TimedMap κ ν :=
  ⟨ttl, max maxEntries 1, now, 0, []⟩

/-- The entry is not too old. -/
def isLive (ttl now : Time) (e : TimedEntry κ ν) : Bool := now - e.since ≤ ttl

/-- The number of entries, expired ones included. -/
def size (m : TimedMap κ ν) : Nat := m.entries.length

/-- There are no entries. -/
def isEmpty (m : TimedMap κ ν) : Bool := m.entries.isEmpty

/-- The map without its entries. -/
def clear (m : TimedMap κ ν) : TimedMap κ ν := { m with entries := [] }

/-! ## 1. Sweeping -/

/-- The map without its expired entries. -/
def purge (m : TimedMap κ ν) (now : Time) : TimedMap κ ν :=
  { m with entries := m.entries.filter (isLive m.ttl now) }

/-- The number of expired entries. -/
def expired (m : TimedMap κ ν) (now : Time) : Nat := m.size - (m.purge now).size

/-- The map swept if a quarter of the time to live has passed since the last sweep. -/
def sweep (m : TimedMap κ ν) (now : Time) : TimedMap κ ν :=
  let ms := Time.millis (now - m.created)
  if Time.millis (m.ttl / 4) ≤ ms - m.lastSweep then { m.purge now with lastSweep := ms } else m

/-- The map with room for one entry: swept, and when it is still full swept again or rid of its
oldest entry. -/
def makeRoom (m : TimedMap κ ν) (now : Time) : TimedMap κ ν :=
  let swept := m.sweep now
  if swept.size < swept.maxEntries then swept
  else if swept.expired now = 0 then { swept with entries := swept.entries.tail }
  else swept.purge now

/-! ## 2. Entries -/

variable [DecidableEq κ]

/-- The entry of a key, live or not. -/
def find? (m : TimedMap κ ν) (key : κ) : Option (TimedEntry κ ν) :=
  m.entries.find? fun e => e.key = key

/-- The live entry of a key. -/
def live? (m : TimedMap κ ν) (now : Time) (key : κ) : Option (TimedEntry κ ν) :=
  (m.find? key).filter (isLive m.ttl now)

/-- The map without the entry of a key. -/
def erase (m : TimedMap κ ν) (key : κ) : TimedMap κ ν :=
  { m with entries := m.entries.filter fun e => e.key ≠ key }

/-- The map with one entry for the key, inserted now. -/
def put (m : TimedMap κ ν) (now : Time) (key : κ) (value : ν) : TimedMap κ ν :=
  { m with entries := (m.erase key).entries ++ [⟨key, value, now⟩] }

/-- Puts a value under its key and starts its age anew. -/
def insert (m : TimedMap κ ν) (now : Time) (key : κ) (value : ν) : TimedMap κ ν :=
  (m.makeRoom now).put now key value

/-- Puts a value under a key without a live entry; `true` if it did. -/
def insertIfAbsent (m : TimedMap κ ν) (now : Time) (key : κ) (value : ν) : Bool × TimedMap κ ν :=
  let m := m.makeRoom now
  match m.live? now key with
  | some _ => (false, m)
  | none => (true, m.put now key value)

/-- The value of a live entry; an expired one is taken out. -/
def get? (m : TimedMap κ ν) (now : Time) (key : κ) : Option ν × TimedMap κ ν :=
  match m.live? now key with
  | some e => (some e.value, m)
  | none => (none, m.erase key)

/-- There is a live entry; an expired one is taken out. -/
def contains (m : TimedMap κ ν) (now : Time) (key : κ) : Bool × TimedMap κ ν :=
  let (value, m) := m.get? now key
  (value.isSome, m)

/-- Takes an entry out; its value if it was live. -/
def remove (m : TimedMap κ ν) (now : Time) (key : κ) : Option ν × TimedMap κ ν :=
  ((m.live? now key).map (·.value), m.erase key)

/-- Changes the value of a live entry and not its age; `true` if there was one. -/
def update (m : TimedMap κ ν) (now : Time) (key : κ) (change : ν → ν) : Bool × TimedMap κ ν :=
  match m.live? now key with
  | some _ =>
    (true, { m with entries := m.entries.map fun e =>
      if e.key = key then { e with value := change e.value } else e })
  | none => (false, m)

end TimedMap

end AccessGate
