import AccessGate.Radius.Dictionary

/-!
# The standard dictionary

The attributes of the protocol and of common vendors, which every gateway knows before it reads a
dictionary of its own.
-/

namespace AccessGate.Radius.Dictionary

/-- Attributes of the protocol: code, name and kind. -/
def standardAttributes : List (UInt8 × Name × Kind) := [
  (1, "User-Name", .text),
  (2, "User-Password", .octets),
  (3, "CHAP-Password", .octets),
  (4, "NAS-IP-Address", .address),
  (5, "NAS-Port", .integer),
  (6, "Service-Type", .integer),
  (7, "Framed-Protocol", .integer),
  (8, "Framed-IP-Address", .address),
  (9, "Framed-IP-Netmask", .address),
  (10, "Framed-Routing", .integer),
  (11, "Filter-Id", .text),
  (12, "Framed-MTU", .integer),
  (13, "Framed-Compression", .integer),
  (14, "Login-IP-Host", .address),
  (15, "Login-Service", .integer),
  (16, "Login-TCP-Port", .integer),
  (18, "Reply-Message", .text),
  (19, "Callback-Number", .text),
  (20, "Callback-Id", .text),
  (22, "Framed-Route", .text),
  (23, "Framed-IPX-Network", .address),
  (24, "State", .octets),
  (25, "Class", .octets),
  (26, "Vendor-Specific", .octets),
  (27, "Session-Timeout", .integer),
  (28, "Idle-Timeout", .integer),
  (29, "Termination-Action", .integer),
  (30, "Called-Station-Id", .text),
  (31, "Calling-Station-Id", .text),
  (32, "NAS-Identifier", .text),
  (33, "Proxy-State", .octets),
  (34, "Login-LAT-Service", .text),
  (35, "Login-LAT-Node", .text),
  (36, "Login-LAT-Group", .octets),
  (37, "Framed-AppleTalk-Link", .integer),
  (38, "Framed-AppleTalk-Network", .integer),
  (39, "Framed-AppleTalk-Zone", .text),
  (40, "Acct-Status-Type", .integer),
  (41, "Acct-Delay-Time", .integer),
  (42, "Acct-Input-Octets", .integer),
  (43, "Acct-Output-Octets", .integer),
  (44, "Acct-Session-Id", .text),
  (45, "Acct-Authentic", .integer),
  (46, "Acct-Session-Time", .integer),
  (47, "Acct-Input-Packets", .integer),
  (48, "Acct-Output-Packets", .integer),
  (49, "Acct-Terminate-Cause", .integer),
  (50, "Acct-Multi-Session-Id", .text),
  (51, "Acct-Link-Count", .integer),
  (52, "Acct-Input-Gigawords", .integer),
  (53, "Acct-Output-Gigawords", .integer),
  (55, "Event-Timestamp", .integer),
  (60, "CHAP-Challenge", .octets),
  (61, "NAS-Port-Type", .integer),
  (62, "Port-Limit", .integer),
  (63, "Login-LAT-Port", .text),
  (64, "Tunnel-Type", .taggedInteger),
  (65, "Tunnel-Medium-Type", .taggedInteger),
  (66, "Tunnel-Client-Endpoint", .taggedText),
  (67, "Tunnel-Server-Endpoint", .taggedText),
  (69, "Tunnel-Password", .octets),
  (77, "Connect-Info", .text),
  (79, "EAP-Message", .octets),
  (80, "Message-Authenticator", .octets),
  (81, "Tunnel-Private-Group-ID", .taggedText),
  (85, "Acct-Interim-Interval", .integer),
  (87, "NAS-Port-Id", .text),
  (88, "Framed-Pool", .text),
  (95, "NAS-IPv6-Address", .octets)]

/-- Attributes of vendors: vendor, code, name and kind. -/
def vendorAttributes : List (UInt32 × UInt8 × Name × Kind) := [
  (9, 1, "Cisco-AVPair", .text),
  (9, 250, "Cisco-Account-Info", .text),
  (311, 1, "MS-CHAP-Response", .octets),
  (311, 11, "MS-CHAP-Challenge", .octets),
  (311, 16, "MS-MPPE-Send-Key", .octets),
  (311, 17, "MS-MPPE-Recv-Key", .octets),
  (311, 25, "MS-CHAP2-Response", .octets),
  (311, 26, "MS-CHAP2-Success", .octets),
  (2636, 1, "Juniper-Local-User-Name", .text),
  (3076, 25, "ASA-Group-Policy", .text),
  (3076, 85, "CVPN3000-IPSec-Group-Name", .text),
  (14988, 3, "Mikrotik-Group", .text),
  (12356, 1, "Fortinet-Group-Name", .text),
  (12356, 6, "Fortinet-Access-Profile", .text),
  (25461, 1, "PaloAlto-Admin-Role", .text),
  (25461, 5, "PaloAlto-User-Group", .text),
  (3845, 16, "Citrix-Group-Names", .text)]

/-- The standard definitions in order. -/
def standardEntries : List Entry :=
  standardAttributes.map (fun (code, name, kind) => ⟨code, name, kind, none⟩) ++
    vendorAttributes.map (fun (vendor, code, name, kind) =>
      ⟨Attribute.vendorSpecific, name, kind, some ⟨vendor, code⟩⟩)

/-- The dictionary of the standard definitions. -/
def standard : Dictionary := standardEntries.foldl insert empty

end AccessGate.Radius.Dictionary
