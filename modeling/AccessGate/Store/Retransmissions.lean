import AccessGate.Net.Printed
import AccessGate.Radius.Packet
import AccessGate.Store.TimedMap
import AccessGate.Text.Base64

/-!
# Retransmissions

A device that gets no answer in time sends its request again. Two requests are one if their code,
identifier, sender, user name and authenticator agree; these make up a text (`requestKey`), which a
timed map remembers.
-/

namespace AccessGate

/-- The requests seen lately. -/
structure Retransmissions where
  seen : TimedMap String Unit

namespace Retransmissions

/-- Nothing seen yet. -/
def make (ttl now : Time) : Retransmissions := ⟨.make ttl TimedMap.defaultMaxEntries now⟩

/-- The text that tells a request from every other. -/
def requestKey (p : Radius.Packet) (sender : Endpoint) : String :=
  "|".intercalate [toString p.code.number.toNat, toString p.identifier.toNat, sender.print,
    p.userName?.getD "", Base64.encode p.authenticator.octets]

/-- Notes a request; `true` if it was seen before. -/
def note (r : Retransmissions) (now : Time) (p : Radius.Packet) (sender : Endpoint) :
    Bool × Retransmissions :=
  let (fresh, seen) := r.seen.insertIfAbsent now (requestKey p sender) ()
  (!fresh, ⟨seen⟩)

end Retransmissions

end AccessGate
