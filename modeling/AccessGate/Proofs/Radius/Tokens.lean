import AccessGate.Proofs.Radius.Values
import AccessGate.Text.Utf8.Inverse

/-!
# A token that comes back

A reply gives the device a token in an attribute, and the device sends its octets back. Here is why
the gateway then reads the same token, whatever else the two packets hold:

* `tokens_write`, `tokens_read`: under the standard dictionary the values of `State` and the
  attributes with the code of `State` are the same, both ways;
* `token_returns`: so a token that was written is read by whoever sends its octets first.
-/

namespace AccessGate.Radius

open WritingContext ReadingContext

/-- The code of a token. -/
def stateCode : UInt8 := 24

/-- In the standard dictionary tokens are octets with a code of their own. -/
theorem raw_state : Raw .standard Name.state stateCode := raw_standard List.mem_cons_self

/-- The tokens among attributes of the wire. -/
def tokensOf (ts : List Tlv) : List Bytes := (ts.filter fun t => t.code = stateCode).map (·.value)

/-- The first token of a datagram. -/
def token? (bs : Bytes) : Option Bytes :=
  match Tlv.readAll headSize (bs.drop headSize) with
  | .ok ts => (tokensOf ts).head?
  | .error _ => none

theorem tokensOf_eq (ts : List Tlv) : tokensOf ts = octetsOf stateCode ts := rfl

section Writing

variable {ctx : WritingContext} {p : Packet} {bs : Bytes}

/-- **The tokens on the wire are the packet's.** -/
theorem tokens_write (standard : ctx.dictionary = .standard) (h : ctx.write p = .ok bs) :
    token? bs = (p.attributes.get? Name.state).map Value.encode := by
  obtain ⟨ts, us, w⟩ := written_of_write h
  have raw : Raw ctx.dictionary Name.state stateCode := standard ▸ raw_state
  unfold token? Attributes.get?
  rw [w.readAll]
  show (tokensOf us).head? = _
  rw [tokensOf_eq, raw.octetsOf_write (by decide) w, List.head?_map]

/-- A token on the wire is no longer than an attribute can be. -/
theorem length_token {octets : Bytes} (h : ctx.write p = .ok bs)
    (token : token? bs = some octets) : octets.length ≤ 253 := by
  obtain ⟨ts, us, w⟩ := written_of_write h
  unfold token? at token
  rw [w.readAll] at token
  obtain ⟨u, hu, rfl⟩ := List.mem_map.mp (List.mem_of_head? token)
  exact w.length_le (List.mem_of_mem_filter hu)

/-- A token alone is written if it is short enough. -/
theorem exists_write_token (standard : ctx.dictionary = .standard) {octets : Bytes}
    (alone : p.attributes.toList = [(Name.state, .octets octets)]) (short : octets.length ≤ 253) :
    ∃ bs, ctx.write p = .ok bs := by
  have hfew : headSize + 255 * p.attributes.toList.length ≤ Packet.maxSize := by
    rw [alone, List.length_singleton]
    decide
  refine exists_write (fun pair hpair => ?_) hfew
  rw [alone] at hpair
  obtain rfl := List.mem_singleton.mp hpair
  have raw : Raw ctx.dictionary Name.state stateCode := standard ▸ raw_state
  exact raw.fits p short

end Writing

section Reading

variable {ctx : ReadingContext} {requestAuthenticator : Option Block} {bs : Bytes} {q : Packet}

/-- **The tokens of the packet are those on the wire.** -/
theorem tokens_read (standard : ctx.dictionary = .standard)
    (h : ctx.read requestAuthenticator bs = .ok q) :
    q.attributes.get? Name.state = (token? bs).map Value.octets := by
  have raw : Raw ctx.dictionary Name.state stateCode := standard ▸ raw_state
  obtain ⟨ts, hts, hvalues⟩ := raw.getAll_read h
  unfold Attributes.get? token?
  rw [hvalues, hts, List.head?_map]
  rfl

end Reading

/-- **A token that was written is read by whoever sends its octets first.** -/
theorem token_returns {w : WritingContext} {ctx : ReadingContext} {p q : Packet}
    {written sent : Bytes} {requestAuthenticator : Option Block} {token : String}
    (standard : w.dictionary = .standard) (standard' : ctx.dictionary = .standard)
    (tells : p.attributes.get? Name.state = some (.octets (Utf8.encode token)))
    (write : w.write p = .ok written) (first : token? sent = token? written)
    (read : ctx.read requestAuthenticator sent = .ok q) : q.state? = some token := by
  have htoken : token? sent = some (Utf8.encode token) := by
    rw [first, tokens_write standard write, tells]
    rfl
  unfold Packet.state? Packet.string?
  rw [tokens_read standard' read, htoken]
  exact congrArg some (Utf8.decodeLossy_encode token)

end AccessGate.Radius
