import AccessGate.Proofs.Radius.Restating
import AccessGate.Proofs.Server.Retransmissions

/-!
# The device that a datagram names

The client of a datagram is found before the packet is read, by a look at its raw attributes. The
packet that is read with the client's secret names the same device:

* `look_eq`: told by positions in the datagram, where every fetch is checked, the look ends, fetches
  nothing outside, and finds what is found by cutting off attribute after attribute;
* `own_standard`: in the standard dictionary a name is that of one definition, and so the values of
  the name are the attributes of one code;
* `names_of_read`: what the look finds is the first of these, if it is UTF-8;
* `recognises`: so the client that was found is the one that the packet names.
-/

namespace AccessGate

namespace Server

open Radius

/-! ## 1. The look by positions -/

/-- A fetch that lies outside. -/
structure Outside where
  position : Nat
  deriving DecidableEq, Repr

/-- The octet at a position. -/
def octetAt (bs : Bytes) (position : Nat) : Except Outside UInt8 :=
  match bs[position]? with
  | some b => .ok b
  | none => .error ⟨position⟩

/-- The octets from a position up to another. -/
def stretch (bs : Bytes) (first last : Nat) : Except Outside Bytes :=
  if first ≤ last ∧ last ≤ bs.length then .ok (bs.slice first (last - first)) else .error ⟨last⟩

/-- The first NAS-Identifier among the attributes from a position up to a size. -/
def lookFrom (bs : Bytes) (size position : Nat) : Except Outside (Option Bytes) :=
  if position + 2 ≤ size then do
    let code ← octetAt bs position
    let length ← octetAt bs (position + 1)
    if _h : length.toNat < 2 ∨ size < position + length.toNat then return none
    else if code = Attribute.nasIdentifier then
      return some (← stretch bs (position + 2) (position + length.toNat))
    else lookFrom bs size (position + length.toNat)
  else return none
termination_by size - position

/-- The first NAS-Identifier of a datagram, whatever size it declares. -/
def look (datagram : Bytes) : Except Outside (Option Bytes) :=
  if datagram.length < headSize then return none
  else do
    let declared := Bytes.toNat [← octetAt datagram 2, ← octetAt datagram 3]
    lookFrom datagram (min (max declared headSize) datagram.length) headSize

variable {bs datagram : Bytes} {size position : Nat}

theorem octetAt_of_lt (inside : position < bs.length) : octetAt bs position = .ok bs[position] := by
  unfold octetAt
  rw [List.getElem?_eq_getElem inside]

theorem stretch_of_le {first last : Nat} (order : first ≤ last) (inside : last ≤ bs.length) :
    stretch bs first last = .ok (bs.slice first (last - first)) := if_pos ⟨order, inside⟩

/-- What is left at a position starts with the octet there. -/
theorem window_cons (inside : size ≤ bs.length) (more : position < size) :
    (bs.take size).drop position =
      bs[position] :: (bs.take size).drop (position + 1) := by
  have hlength : position < (bs.take size).length := by
    rw [List.length_take]
    omega
  rw [List.drop_eq_getElem_cons hlength, List.getElem_take]

/-- What lies in front of the size is there as in the whole. -/
theorem take_window {count : Nat} (fits : position + count ≤ size) :
    ((bs.take size).drop position).take count = bs.slice position count := by
  unfold Bytes.slice
  rw [List.drop_take, List.take_take, Nat.min_eq_left (Nat.le_sub_of_add_le' fits)]

/-- An octet alone is no attribute. -/
theorem scan_of_short (short : bs.length < 2) : scan bs = none := by
  unfold scan
  split
  · simp only [List.length_cons] at short
    omega
  · rfl

/-- **The look ends inside**, and finds what is found by cutting off one attribute after the
other. -/
theorem lookFrom_eq (inside : size ≤ bs.length) (position : Nat) :
    lookFrom bs size position = .ok (scan ((bs.take size).drop position)) := by
  rw [lookFrom]
  by_cases hmore : position + 2 ≤ size
  · have hwindow : (bs.take size).drop position = bs[position] :: bs[position + 1] ::
        (bs.take size).drop (position + 2) := by
      rw [window_cons inside (by omega), window_cons inside (by omega)]
    have hroom : ((bs.take size).drop (position + 2)).length = size - (position + 2) := by
      rw [List.length_drop, List.length_take, Nat.min_eq_left inside]
    rw [if_pos hmore, octetAt_of_lt (by omega), octetAt_of_lt (by omega), hwindow, scan, hroom]
    generalize bs[position] = code
    generalize bs[position + 1] = length
    -- the two looks measure the room for the value from different places
    by_cases hbad : length.toNat < 2 ∨ size < position + length.toNat
    · have hbad' : length.toNat < 2 ∨ size - (position + 2) < length.toNat - 2 := by omega
      simp only [bind, Except.bind, dif_pos hbad, if_pos hbad']
      rfl
    · have hbad' : ¬ (length.toNat < 2 ∨ size - (position + 2) < length.toNat - 2) := by omega
      simp only [bind, Except.bind, dif_neg hbad, if_neg hbad']
      split
      · have hcount : position + length.toNat - (position + 2) = length.toNat - 2 := by omega
        rw [stretch_of_le (by omega) (by omega), hcount, take_window (by omega)]
        rfl
      · have hnext : position + 2 + (length.toNat - 2) = position + length.toNat := by omega
        rw [List.drop_drop, hnext]
        exact lookFrom_eq inside (position + length.toNat)
  · have hshort : ((bs.take size).drop position).length < 2 := by
      rw [List.length_drop, List.length_take]
      omega
    rw [if_neg hmore, scan_of_short hshort]
    rfl
termination_by size - position

/-- **A look at a datagram ends and fetches nothing outside**, and its find, if it is UTF-8, is the
name that the datagram goes by. -/
theorem look_eq (datagram : Bytes) :
    ∃ found, look datagram = .ok found ∧ nasIdentifier? datagram = found.bind Utf8.decode? := by
  unfold look nasIdentifier?
  by_cases hshort : datagram.length < headSize
  · rw [if_pos hshort, if_pos hshort]
    exact ⟨none, rfl, rfl⟩
  · have htwo : 3 < datagram.length := Nat.lt_of_lt_of_le (by decide) (Nat.le_of_not_lt hshort)
    have hdeclared : [datagram[2], datagram[3]] = datagram.slice 2 2 := by
      unfold Bytes.slice
      rw [List.drop_eq_getElem_cons (by omega), List.drop_eq_getElem_cons htwo]
      rfl
    rw [if_neg hshort, if_neg hshort, octetAt_of_lt (by omega), octetAt_of_lt htwo]
    simp only [bind, Except.bind]
    rw [hdeclared, lookFrom_eq (Nat.min_le_right _ _)]
    exact ⟨_, rfl, rfl⟩

/-! ## 2. What the look finds in a packet -/

/-- In attributes one after the other it finds the first of the code. -/
theorem scan_of_spells {ts : List Tlv} (h : Tlv.Spells bs ts) :
    scan bs = (octetsOf Attribute.nasIdentifier ts).head? := by
  induction h with
  | nil => exact scan_of_short (by decide)
  | cons t bs rest ts leads _ ih =>
    obtain ⟨length, tail, rfl, -, hfits, htake, hdrop⟩ := leads.cut
    rw [scan, if_neg hfits, htake, hdrop]
    by_cases hcode : t.code = Attribute.nasIdentifier
    · simp [octetsOf, hcode]
    · rw [if_neg hcode, ih]
      simp [octetsOf, hcode]

/-- A packet declares its own size, and so the look goes through all of its attributes. -/
theorem nasIdentifier?_of_spells {ts : List Tlv} (framed : Framed datagram)
    (spells : Tlv.Spells (datagram.drop headSize) ts) :
    nasIdentifier? datagram = (octetsOf Attribute.nasIdentifier ts).head?.bind Utf8.decode? := by
  have hsize : min (max (declaredSize datagram) headSize) datagram.length = datagram.length := by
    have hdeclared : declaredSize datagram = datagram.length := framed.declared
    rw [hdeclared, Nat.max_eq_left framed.long, Nat.min_self]
  unfold nasIdentifier?
  rw [if_neg (Nat.not_lt.mpr framed.long), hsize]
  simp only
  rw [List.take_length, scan_of_spells spells]

/-! ## 3. What the packet names -/

/-- **In the standard dictionary a name is that of one definition**, whatever the kind of its values. -/
theorem own_standard {e : Entry} (he : e ∈ Dictionary.standard.entries) (plain : e.vendor = none)
    (notVendor : e.code ≠ Attribute.vendorSpecific) (notPassword : e.code ≠ Attribute.userPassword) :
    Own .standard e.name e where
  named e' he' := by
    constructor
    · intro hsame
      obtain rfl := Dictionary.eq_of_same he' he hsame
      exact ⟨plain, rfl⟩
    · intro hplace
      have hfound := Dictionary.byCode?_standard he' hplace.1
      rw [hplace.2, Dictionary.byCode?_standard he plain] at hfound
      rw [Option.some.inj hfound]
      exact Name.same_iff.mpr rfl
  found := Dictionary.byCode?_standard he plain
  notVendor := notVendor
  notPassword := notPassword
  otherPassword := by
    rw [nameOf_userPassword]
    refine Bool.eq_false_iff.mpr fun hsame => notPassword ?_
    rw [← Dictionary.eq_of_same (Dictionary.of_byCode? byCode?_userPassword).1 he hsame]
    rfl

/-- The definition of the device's name. -/
def deviceEntry : Entry := ⟨Attribute.nasIdentifier, Name.nasIdentifier, .text, none⟩

theorem own_device : Own .standard Name.nasIdentifier deviceEntry := by
  have hmem : deviceEntry ∈ Dictionary.standardEntries := by decide +kernel
  exact own_standard (Dictionary.mem_standard_iff.mpr hmem) rfl (by decide) (by decide)

/-- Octets that are UTF-8 are heard as their text, with control characters or without. -/
theorem asString_ofTextual {octets : Bytes} {text : String} (h : Utf8.decode? octets = some text) :
    (Value.ofTextual octets).asString = text := by
  obtain ⟨cs, hcs, rfl⟩ := Option.map_eq_some_iff.mp h
  have hoctets : Utf8.encode (String.ofList cs) = octets := by
    unfold Utf8.encode
    rw [String.toList_ofList, Utf8.encodeChars_of_decodeChars? hcs]
  rw [← hoctets, Value.ofTextual_encode, Value.asString_heard]

/-- What the packet names the device, unless that is not UTF-8. -/
def legibleDevice? (p : Packet) : Option String :=
  (p.attributes.get? Name.nasIdentifier).bind fun v =>
    if (Utf8.decode? v.encode).isSome then p.nasIdentifier? else none

section

variable {p : Packet} {name : String}

theorem device_of_legible (h : legibleDevice? p = some name) : p.nasIdentifier? = some name := by
  obtain ⟨v, -, hv⟩ := Option.bind_eq_some_iff.mp h
  split at hv
  · exact hv
  · cases hv

theorem legible_none_iff : legibleDevice? p = none ↔
    p.attributes.getAll Name.nasIdentifier = [] ∨
      ∃ v more, p.attributes.getAll Name.nasIdentifier = v :: more ∧
        Utf8.decode? v.encode = none := by
  unfold legibleDevice? Packet.nasIdentifier? Packet.string? Attributes.get?
  cases p.attributes.getAll Name.nasIdentifier with
  | nil => exact iff_of_true rfl (Or.inl rfl)
  | cons v more =>
    cases hdecode : Utf8.decode? v.encode with
    | none => exact iff_of_true (by simp [hdecode]) (Or.inr ⟨v, more, rfl, hdecode⟩)
    | some text =>
      refine iff_of_false (by simp [hdecode]) fun h => ?_
      rcases h with h | ⟨v', more', h, hnone⟩
      · cases h
      · obtain ⟨rfl, -⟩ := List.cons.inj h
        cases hdecode.symm.trans hnone

/-- The first NAS-Identifier decides, as the text that it is. -/
theorem legible_of_values {found : List Bytes}
    (values : p.attributes.getAll Name.nasIdentifier = found.map Value.ofTextual) :
    legibleDevice? p = found.head?.bind Utf8.decode? := by
  unfold legibleDevice? Packet.nasIdentifier? Packet.string? Attributes.get?
  rw [values]
  cases found with
  | nil => rfl
  | cons octets more =>
    simp only [List.map_cons, List.head?_cons, Option.bind_some, Option.map_some,
      Value.encode_ofTextual]
    cases hdecode : Utf8.decode? octets with
    | none => rfl
    | some text =>
      rw [asString_ofTextual hdecode]
      rfl

end

/-- **The packet of a datagram names the device as the look does.** -/
structure Names (datagram : Bytes) (p : Packet) : Prop where
  /-- The names in the packet are the attributes of the code, as they came. -/
  wire : ∃ ts, Tlv.Spells (datagram.drop headSize) ts ∧
    (p.attributes.getAll Name.nasIdentifier).map Value.encode =
      octetsOf Attribute.nasIdentifier ts
  text : ∀ name, nasIdentifier? datagram = some name → p.nasIdentifier? = some name
  none_iff : nasIdentifier? datagram = none ↔ p.attributes.getAll Name.nasIdentifier = [] ∨
    ∃ v more, p.attributes.getAll Name.nasIdentifier = v :: more ∧ Utf8.decode? v.encode = none
  legible : nasIdentifier? datagram = legibleDevice? p

/-- A packet that was read names the device as the look did. -/
theorem names_of_read {ctx : ReadingContext} {requestAuthenticator : Option Block} {p : Packet}
    (standard : ctx.dictionary = .standard)
    (h : ctx.read requestAuthenticator datagram = .ok p) : Names datagram p := by
  have own : Own ctx.dictionary Name.nasIdentifier deviceEntry := by
    rw [standard]
    exact own_device
  obtain ⟨ts, hts, hheard⟩ := own.getAll_read h
  obtain ⟨_, hgenuine, -⟩ := genuine_of_read h
  obtain ⟨hspells, -⟩ := Tlv.readAll_ok_iff.mp hts
  have hvalues : p.attributes.getAll Name.nasIdentifier =
      (octetsOf Attribute.nasIdentifier ts).map Value.ofTextual := by
    rw [hheard, List.map_eq_flatMap]
    rfl
  have hencode : (p.attributes.getAll Name.nasIdentifier).map Value.encode =
      octetsOf Attribute.nasIdentifier ts := by
    rw [hvalues, List.map_map]
    exact List.map_id'' Value.encode_ofTextual _
  have hlegible : nasIdentifier? datagram = legibleDevice? p :=
    (nasIdentifier?_of_spells hgenuine.framed hspells).trans (legible_of_values hvalues).symm
  refine ⟨⟨ts, hspells, hencode⟩, fun name hname => ?_, ?_, hlegible⟩
  · exact device_of_legible (hlegible.symm.trans hname)
  · rw [hlegible]
    exact legible_none_iff

/-! ## 4. The client -/

/-- A request is of the client that was found for its datagram, and was read with its secret. -/
theorem client_of_request {V : Type} {s : Server V} {sender : Endpoint} {request : Request}
    (h : s.request sender datagram = .ok request) : ∃ relayed,
      ProxyHeader.unwrap datagram = .ok relayed ∧
      request.remote = relayed.source.getD sender ∧
      s.registry.resolve? (nasIdentifier? relayed.payload) request.remote.address =
        some request.client ∧
      (s.reading request.client).read none relayed.payload = .ok request.packet := by
  unfold Server.request at h
  cases hunwrap : ProxyHeader.unwrap datagram with
  | error fault =>
    rw [hunwrap] at h
    cases h
  | ok relayed =>
    rw [hunwrap] at h
    simp only [Except.mapError, bind, Except.bind] at h
    split at h
    · cases h
    · rename_i client hclient
      cases hread : (s.reading client).read none relayed.payload with
      | error fault =>
        rw [hread] at h
        cases h
      | ok packet =>
        rw [hread] at h
        simp only at h
        split at h
        · obtain rfl := Except.ok.inj h
          exact ⟨relayed, rfl, rfl, hclient, hread⟩
        · cases h

/-- **The look and the packet agree.** The look at a datagram ends and fetches nothing outside. Where
the datagram is a packet, both name the device alike, and so the client of a request is the one that
its packet names. -/
theorem recognises {V : Type} (datagram : Bytes) :
    (∃ found, look datagram = .ok found ∧ nasIdentifier? datagram = found.bind Utf8.decode?) ∧
    (∀ (ctx : ReadingContext) (requestAuthenticator : Option Block) (p : Packet),
      ctx.dictionary = .standard → ctx.read requestAuthenticator datagram = .ok p →
        Names datagram p) ∧
    ∀ (s : Server V) (sender : Endpoint) (request : Request), s.writing.dictionary = .standard →
      s.request sender datagram = .ok request →
        s.registry.resolve? (legibleDevice? request.packet) request.remote.address =
          some request.client := by
  refine ⟨look_eq datagram, fun _ _ _ standard h => names_of_read standard h, ?_⟩
  intro s sender request standard h
  obtain ⟨relayed, -, -, hclient, hread⟩ := client_of_request h
  rw [← (names_of_read standard hread).legible]
  exact hclient

end Server

/-! ## 5. A datagram of the sample with two names -/

namespace Login

open Radius Server

/-- An empty attribute, a name with a control character, and another name. -/
def namedDatagram : Bytes :=
  [1, 7, 0, 32] ++ Bytes.zeros 16 ++ [1, 2] ++ [32, 5, 0x77, 0x07, 0x31] ++ [32, 5, 0x76, 0x70, 0x6E]

/-- A server that knows the first name. -/
def namingServer : Server FirstFactor.Verifier :=
  { server with registry := ⟨[("w\x071", Config.exampleRemoteClient)], server.registry.byNetwork⟩ }

/-- The request that the datagram makes: the first name is no text of its own, but octets. -/
def namedRequest : Request := .make device none Config.exampleRemoteClient
  ⟨.accessRequest, 7, .zero, none, Config.exampleRemoteClient.secret,
    .ofList [(Name.userName, .text ""), (Name.nasIdentifier, .octets [0x77, 0x07, 0x31]),
      (Name.nasIdentifier, .text "vpn")]⟩

/-- How the packets of that client are read. -/
def namedContext : ReadingContext := namingServer.reading Config.exampleRemoteClient

theorem recognises_two_names :
    (∃ found, look namedDatagram = .ok found ∧
      nasIdentifier? namedDatagram = found.bind Utf8.decode?) ∧
    namedContext.dictionary = .standard ∧
    namedContext.read none namedDatagram = .ok namedRequest.packet ∧
    Names namedDatagram namedRequest.packet ∧
    namedRequest.packet.nasIdentifier? = some "w\x071" ∧
    namingServer.writing.dictionary = .standard ∧
    namingServer.request device namedDatagram = .ok namedRequest ∧
    namingServer.registry.resolve? (legibleDevice? namedRequest.packet)
      namedRequest.remote.address = some Config.exampleRemoteClient := by
  obtain ⟨hlook, hnames, hclient⟩ := recognises (V := FirstFactor.Verifier) namedDatagram
  have hread : namedContext.read none namedDatagram = .ok namedRequest.packet := by decide +kernel
  have hrequest : namingServer.request device namedDatagram = .ok namedRequest := by decide +kernel
  have hnamed := hnames namedContext none namedRequest.packet rfl hread
  have hfound : nasIdentifier? namedDatagram = some "w\x071" := by decide +kernel
  exact ⟨hlook, rfl, hread, hnamed, hnamed.text _ hfound, rfl, hrequest,
    hclient namingServer device namedRequest rfl hrequest⟩

end Login

end AccessGate
