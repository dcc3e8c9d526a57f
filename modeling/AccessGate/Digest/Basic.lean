import AccessGate.Digest.Md5

/-!
# Digests and keyed digests

Whatever protects a packet uses two functions: a digest of a string and a digest under a key. They
stand in one record, `Digests`, so that what holds of packets can be stated for any two functions
into blocks; the packets of the network use `Digests.standard`, MD5 and HMAC-MD5.
-/

namespace AccessGate

/-- A digest function and a keyed one. -/
structure Digests where
  digest : Bytes → Block
  mac : Bytes → Bytes → Block

namespace Md5

/-- A key in one block of sixty-four octets: a longer key enters as its digest. -/
def keyBlock (key : Bytes) : Bytes :=
  let short := if key.length ≤ 64 then key else (digest key).octets
  short ++ Bytes.zeros (64 - short.length)

/-- HMAC-MD5 of a message under a key. -/
def mac (key message : Bytes) : Block :=
  let block := keyBlock key
  digest (block.map (· ^^^ 0x5c) ++ (digest (block.map (· ^^^ 0x36) ++ message)).octets)

end Md5

/-- MD5 and HMAC-MD5. -/
def Digests.standard : Digests := ⟨Md5.digest, Md5.mac⟩

end AccessGate
