import AccessGate.Access.Factor
import AccessGate.Access.Profile
import AccessGate.Config.Check

/-!
# Requests on their way

A request is a packet of a client together with what its way through the gateway has brought to
light: the user's profile, how both factors stand, and what the reply will say. The user name is the
packet's without the blanks around it.
-/

namespace AccessGate

/-- A packet of a client and what is known of it so far. -/
structure Request where
  /-- The device, as a relay announced it or as the datagram came. -/
  remote : Endpoint
  /-- The relay that the datagram came from. -/
  relay : Option Endpoint
  client : Client
  packet : Radius.Packet
  userName : Option String
  passphrase : Option String
  profile : Profile
  factors : Factors
  /-- The token that the reply sends back. -/
  state : Option String
  replyMessage : Option String
  /-- The reply of a remote server that checked the first factor. -/
  remoteReply : Option Radius.Packet
  deriving DecidableEq

namespace Request

/-- A request that nothing is known of yet. -/
def make (remote : Endpoint) (relay : Option Endpoint) (client : Client) (packet : Radius.Packet) :
    Request where
  remote
  relay
  client
  packet
  userName := packet.userName?.map Text.trim
  passphrase := packet.userPassword?
  profile := .empty
  factors := .awaiting
  state := none
  replyMessage := none
  remoteReply := none

/-- Where the reply goes. -/
def replyAddress (r : Request) : Endpoint := r.relay.getD r.remote

/-- The device asks whether the gateway is there. -/
def isStatusServer (r : Request) : Bool := r.packet.code == .statusServer

/-- The user name, empty where there is none. -/
def user (r : Request) : String := r.userName.getD ""

/-- The passphrase, empty where there is none. -/
def password (r : Request) : String := r.passphrase.getD ""

/-- The station that the user came from. -/
def station (r : Request) : Option String := r.packet.callingStationId?

/-- The token that the packet brings back. -/
def token (r : Request) : Option String := r.packet.state?

end Request

end AccessGate
