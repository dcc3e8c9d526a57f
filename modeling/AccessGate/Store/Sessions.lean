import AccessGate.Store.TimedMap
import AccessGate.Text.Lower

/-!
# Sessions

A user who passed the second factor from a station is remembered for a while under the client's
name, the station and the lower-case user name. A request without a station has no session, and a
lifetime of zero turns sessions off.
-/

namespace AccessGate

/-- Whom a session belongs to. -/
structure SessionKey where
  client : String
  station : String
  user : String
  deriving DecidableEq

/-- The sessions that are open. -/
structure Sessions where
  table : TimedMap SessionKey Unit

namespace Sessions

/-- No sessions. -/
def make (lifetime now : Time) : Sessions := ⟨.make lifetime TimedMap.defaultMaxEntries now⟩

/-- Sessions are kept at all. -/
def isEnabled (s : Sessions) : Bool := s.table.ttl ≠ 0

/-- The key of a user at a station. -/
def key (client station user : String) : SessionKey := ⟨client, station, Text.lower user⟩

/-- The user has a session at the station. -/
def check (s : Sessions) (now : Time) (client : String) (station : Option String) (user : String) :
    Bool × Sessions :=
  match station with
  | none => (false, s)
  | some station =>
    if s.isEnabled then
      let (hit, table) := s.table.contains now (key client station user)
      (hit, ⟨table⟩)
    else (false, s)

/-- Opens a session for the user at the station. -/
def record (s : Sessions) (now : Time) (client : String) (station : Option String) (user : String) :
    Sessions :=
  match station with
  | none => s
  | some station =>
    if s.isEnabled then ⟨s.table.insert now (key client station user) ()⟩ else s

end Sessions

end AccessGate
