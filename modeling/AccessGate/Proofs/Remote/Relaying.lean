import AccessGate.Proofs.Radius.Restating
import AccessGate.Remote.Relay

/-!
# What the remote server reads

A request that was read is written again for the remote server: under another secret, with an
authenticator of its own, and with the gateway's name for the device where it has one. This file says
what the remote server reads of it, where both sides use the standard dictionary:

* `carried`, `renamed`: what is left of the request, and what stands for the name of the device;
* `outbound_spec`: so these are the values that are written, and a Message-Authenticator behind them;
* `readBack_of_readUnder` and `readAs_device` tell what each value is read as, and
  `toList_received_outbound` what the whole is read as;
* `relayed_of_write`: so the remote server reads the same values in the same order, and the same
  password (`Relayed`).
-/

namespace AccessGate.Remote

open Radius WritingContext

/-! ## 1. What is written -/

/-- The values that go on: neither a Message-Authenticator nor the mark of a relay. -/
def carried (p : Packet) : List (Name × Value) :=
  p.attributes.toList.filter fun a =>
    !Name.same a.1 Name.messageAuthenticator && !Name.same a.1 Name.proxyState

/-- The values with the given name of the device in the place of the first that they have, or behind
all others. -/
def renamed (nas : Option Value) (pairs : List (Name × Value)) : List (Name × Value) :=
  match nas with
  | some v => Attributes.placed Name.nasIdentifier v pairs
  | none => pairs

/-- The definition of the name of a device. -/
def deviceEntry : Entry := ⟨Attribute.nasIdentifier, Name.nasIdentifier, .text, none⟩

/-- The definition of the mark of a relay. -/
def relayEntry : Entry := ⟨33, Name.proxyState, .octets, none⟩

theorem mem_standard {e : Entry} (h : e ∈ [deviceEntry, relayEntry, signatureEntry]) :
    e ∈ Dictionary.standard.entries := by
  have hall : ∀ e ∈ [deviceEntry, relayEntry, signatureEntry],
      e ∈ Dictionary.standardEntries := by decide +kernel
  exact Dictionary.mem_standard_iff.mpr (hall e h)

/-- A request with the given values and nothing else. -/
def requestWith (identifier : UInt8) (secret : Secret) (drawn : Block) (as : Attributes) : Packet :=
  { Packet.new .accessRequest identifier secret drawn with attributes := as }

theorem mem_renamed {nas : Option Value} {pairs : List (Name × Value)} {a : Name × Value}
    (h : a ∈ renamed nas pairs) : a.1 = Name.nasIdentifier ∧ some a.2 = nas ∨ a ∈ pairs := by
  cases nas with
  | none => exact Or.inr h
  | some v =>
    obtain ⟨before, behind, hothers, hplaced⟩ :=
      Attributes.placed_split Name.nasIdentifier pairs
    have h : a ∈ before ++ (Name.nasIdentifier, v) :: behind := hplaced v ▸ h
    rcases List.mem_append.mp h with h | h
    · exact Or.inr (hothers a (List.mem_append_left _ h)).1
    · rcases List.mem_cons.mp h with rfl | h
      · exact Or.inl ⟨rfl, rfl⟩
      · exact Or.inr (hothers a (List.mem_append_right _ h)).1

/-- A request without a Message-Authenticator gets one behind all that it has. -/
theorem ensure_requestWith {identifier : UInt8} {secret : Secret} {drawn : Block} {as : Attributes}
    (unsigned : as.contains Name.messageAuthenticator = false) :
    (requestWith identifier secret drawn as).ensureMessageAuthenticator =
      requestWith identifier secret drawn
        (as.add Name.messageAuthenticator (.octets (Bytes.zeros 16))) :=
  if_neg (Bool.eq_false_iff.mp unsigned)

section Outbound

variable {p : Packet} (read : ∀ pair ∈ p.attributes.toList, ∃ e, ReadUnder pair e)

theorem mem_carried {a : Name × Value} (h : a ∈ carried p) :
    a ∈ p.attributes.toList ∧ Name.same a.1 Name.messageAuthenticator = false := by
  obtain ⟨hmem, hkeep⟩ := List.mem_filter.mp h
  rw [Bool.and_eq_true, Bool.not_eq_true'] at hkeep
  exact ⟨hmem, hkeep.1⟩

theorem device_ne_signature :
    Name.same Name.nasIdentifier Name.messageAuthenticator = false := by
  rw [Bool.eq_false_iff, Ne, Name.same_iff_letters]
  decide +kernel

theorem unsigned_renamed {v : Option Value} {a : Name × Value} (h : a ∈ renamed v (carried p)) :
    Name.same a.1 Name.messageAuthenticator = false := by
  rcases mem_renamed h with ⟨hname, -⟩ | h
  · rw [hname]
    exact device_ne_signature
  · exact (mem_carried h).2

include read

/-- What goes on is chosen by the names as they are spelled. -/
theorem forwarded_eq : forwarded p = carried p := by
  refine List.filter_congr fun pair hpair => ?_
  obtain ⟨e, he⟩ := read pair hpair
  have hsigned := he.same_iff (mem_standard (e := signatureEntry) (by decide))
  have hrelayed := he.same_iff (mem_standard (e := relayEntry) (by decide))
  rw [Bool.eq_iff_iff, decide_eq_true_iff, Bool.and_eq_true, Bool.not_eq_true',
    Bool.not_eq_true', Bool.eq_false_iff, Bool.eq_false_iff]
  exact and_congr (not_congr hsigned).symm (not_congr hrelayed).symm

/-- **The request for the remote server**: what goes on, with the gateway's name for the device, and a
Message-Authenticator behind it. -/
theorem outbound_spec (secret : Secret) (nas : Option String) (drawn : Block) : ∃ as : Attributes,
    (∀ identifier, { outbound p secret nas drawn with identifier } =
      requestWith identifier secret drawn as) ∧
    as.toList = renamed (nas.map .text) (carried p) ++
      [(Name.messageAuthenticator, .octets (Bytes.zeros 16))] := by
  have hcarried : (Attributes.ofList (forwarded p)).toList = carried p := by
    rw [forwarded_eq read]
    exact Attributes.toList_ofList_filter p.attributes fun name =>
      !Name.same name Name.messageAuthenticator && !Name.same name Name.proxyState
  obtain ⟨as, has, hlist⟩ : ∃ as : Attributes, outbound p secret nas drawn =
      (requestWith 0 secret drawn as).ensureMessageAuthenticator ∧
      as.toList = renamed (nas.map .text) (carried p) := by
    cases nas with
    | none => exact ⟨_, rfl, hcarried⟩
    | some name =>
      refine ⟨_, rfl, ?_⟩
      rw [Attributes.toList_set, hcarried]
      · rfl
      · intro a ha hsame
        rw [hcarried] at ha
        obtain ⟨e, he⟩ := read a (mem_carried ha).1
        exact (he.same_iff (mem_standard (e := deviceEntry) (by decide))).mp hsame
  have hnone : as.contains Name.messageAuthenticator = false := by
    refine Attributes.not_contains_of_getAll ?_
    rw [Attributes.getAll_eq, hlist]
    exact Attributes.valuesOf_of_ne fun _ => unsigned_renamed
  refine ⟨_, fun identifier => ?_, (Attributes.toList_add_new hnone _).trans (by rw [hlist])⟩
  rw [has, ensure_requestWith hnone]
  rfl

end Outbound

/-! ## 2. What is read -/

/-- What is read of the value, whatever the octets on the wire. -/
def ReadAs (a b : Name × Value) : Prop := ∀ wire, readBack .standard .utf8 a wire = [b]

/-- The name of the device is read as the text that it is. -/
theorem readAs_device (name : String) :
    ReadAs (Name.nasIdentifier, .text name) (Name.nasIdentifier, .heard name) := by
  intro wire
  have hback := readBack_standard (mem_standard (e := deviceEntry) (by decide)) .utf8
    (.text name) wire
  rw [if_neg (by decide), if_neg (by decide)] at hback
  rw [← Value.ofTextual_encode]
  exact hback

/-- A Message-Authenticator is what stands on the wire. -/
theorem readBack_signature (v : Value) (wire : Bytes) :
    readBack .standard .utf8 (Name.messageAuthenticator, v) wire =
      [(Name.messageAuthenticator, .octets wire)] := by
  have hback := readBack_standard (mem_standard (e := signatureEntry) (by decide)) .utf8 v wire
  rw [if_pos (by decide)] at hback
  exact hback

section Request

variable {p : Packet} (read : ∀ pair ∈ p.attributes.toList, ∃ e, ReadUnder pair e)
  {secret : Secret} {nas : Option String} {drawn : Block} {identifier : UInt8} {as : Attributes}

include read

/-- The values of the request are read as they are, the name of the device as a text is. -/
theorem forall_readAs : List.Forall₂ ReadAs (renamed (nas.map .text) (carried p))
    (renamed (nas.map .heard) (carried p)) := by
  have hcarried : ∀ a ∈ carried p, ReadAs a a := by
    intro a ha wire
    obtain ⟨hmem, hunsigned⟩ := mem_carried ha
    obtain ⟨e, he⟩ := read a hmem
    refine readBack_of_readUnder he (fun hsigned => Bool.eq_false_iff.mp hunsigned ?_) wire
    rw [he.name]
    exact (raw_signature.named e he.defines).mpr hsigned
  cases nas with
  | none => exact List.forall₂_same.mpr hcarried
  | some name =>
    obtain ⟨before, behind, hothers, hplaced⟩ :=
      Attributes.placed_split Name.nasIdentifier (carried p)
    show List.Forall₂ ReadAs (Attributes.placed _ _ _) (Attributes.placed _ _ _)
    rw [hplaced, hplaced]
    refine List.rel_append (List.forall₂_same.mpr fun a ha => ?_)
      (.cons (readAs_device name) (List.forall₂_same.mpr fun a ha => ?_))
    · exact hcarried a (hothers a (List.mem_append_left _ ha)).1
    · exact hcarried a (hothers a (List.mem_append_right _ ha)).1

/-- The request can be read. -/
theorem legible_outbound (values : as.toList = renamed (nas.map .text) (carried p) ++
      [(Name.messageAuthenticator, .octets (Bytes.zeros 16))]) :
    Legible .standard (requestWith identifier secret drawn as) where
  refound := Or.inl rfl
  plain := by
    intro a ha e he hvendor
    -- each name leads to its definition
    have hdefined {e' : Entry} (h : e' ∈ Dictionary.standard.entries) (hname : a.1 = e'.name) :
        e = e' := by
      rw [hname, Dictionary.byName?_standard h] at he
      exact (Option.some.inj he).symm
    have ha : a ∈ as.toList := ha
    rw [values] at ha
    rcases List.mem_append.mp ha with ha | ha
    · rcases mem_renamed ha with ⟨hname, -⟩ | ha
      · rw [hdefined (mem_standard (e := deviceEntry) (by decide)) hname]
        decide
      · obtain ⟨e', he'⟩ := read a (mem_carried ha).1
        obtain rfl := hdefined he'.defines he'.name
        exact he'.plain hvendor
    · rw [List.mem_singleton.mp ha] at hdefined
      rw [hdefined (mem_standard (e := signatureEntry) (by decide)) rfl]
      decide
  answersNone := fun _ => rfl
  password := fun _ _ _ _ _ _ => ⟨rfl, rfl⟩

/-- **What is read of the request**: its values, and the digest behind them. -/
theorem toList_received_outbound {ds : Digests} {bs : Bytes} {ts us : List Tlv}
    (values : as.toList = renamed (nas.map .text) (carried p) ++
      [(Name.messageAuthenticator, .octets (Bytes.zeros 16))])
    (w : Written ⟨ds, .standard⟩ (requestWith identifier secret drawn as) bs ts us) :
    ∃ digest, digest.length = 16 ∧
      (received ⟨ds, .standard⟩ (requestWith identifier secret drawn as) .utf8 us).attributes.toList =
        renamed (nas.map .heard) (carried p) ++
          [(Name.messageAuthenticator, .octets digest)] := by
  have hvalues : (requestWith identifier secret drawn as).attributes.toList =
      renamed (nas.map .text) (carried p) ++
        [(Name.messageAuthenticator, .octets (Bytes.zeros 16))] := values
  have hreceived := toList_received (legible_outbound read values) w .utf8
  have hwire := w.wire
  rw [hvalues] at hreceived hwire
  -- the last attribute is the signature, those before it stand for the values
  obtain ⟨us, u, rfl, hfront, -, t, ⟨e, hwrites⟩, hstamped⟩ := exists_concat_of_forall hwire
  refine ⟨u.value, ?_, ?_⟩
  · refine w.length_signature (List.mem_append_right _ (List.mem_singleton.mpr rfl)) ?_
    exact (raw_signature.code_iff hwrites hstamped).mpr (Name.same_iff.mpr rfl)
  · have hback := flatMap_zip_of_forall (f := fun a (u : Tlv) => readBack .standard .utf8 a u.value)
      ((forall_readAs read).imp fun _ _ h (u : Tlv) => h u.value) hfront.length_eq.symm
    rw [hreceived, List.zip_append hfront.length_eq, List.flatMap_append, hback,
      List.zip_cons_cons, List.zip_nil_left, List.flatMap_singleton, readBack_signature]

end Request

/-! ## 3. Relaying -/

/-- The packet `q` is the request `p` as the remote server reads it, under the given name of the
device if there is one. -/
structure Relayed (p : Packet) (nas : Option String) (identifier : UInt8) (q : Packet) : Prop where
  code : q.code = .accessRequest
  identifier : q.identifier = identifier
  /-- The same password. -/
  password : q.userPassword? = p.userPassword?
  /-- The gateway's name for the device. -/
  device : ∀ name, nas = some name → q.nasIdentifier? = some name
  /-- The same values in the same order, and one Message-Authenticator behind them. -/
  values : ∃ digest, digest.length = 16 ∧ q.attributes.toList =
    renamed (nas.map .heard) (carried p) ++ [(Name.messageAuthenticator, .octets digest)]
  /-- No mark of a relay. -/
  unmarked : q.proxyStates = []
  /-- No other Message-Authenticator. -/
  signed : (q.attributes.getAll Name.messageAuthenticator).length = 1

section Names

variable {p : Packet} {as : Attributes} {name : Name} {v : Option Value} {digest : Value}

/-- Only the name of the device is changed. -/
theorem valuesOf_renamed (other : Name.same Name.nasIdentifier name = false) :
    Attributes.valuesOf name (renamed v (carried p)) = Attributes.valuesOf name (carried p) := by
  cases v with
  | none => rfl
  | some v => exact Attributes.valuesOf_placed_of_ne other v _

/-- A name that is neither left out nor changed keeps its values. -/
theorem getAll_kept
    (values : as.toList = renamed v (carried p) ++ [(Name.messageAuthenticator, digest)])
    (other : ∀ changed ∈ [Name.nasIdentifier, Name.proxyState, Name.messageAuthenticator],
      Name.same changed name = false) :
    as.getAll name = p.attributes.getAll name := by
  have hkept : ∀ a ∈ p.attributes.toList, Name.same a.1 name = true →
      (!Name.same a.1 Name.messageAuthenticator && !Name.same a.1 Name.proxyState) = true := by
    intro a _ hname
    have hleft {left : Name} (h : Name.same left name = false) : Name.same a.1 left = false := by
      rw [Name.same_congr hname, Name.same_comm]
      exact h
    rw [hleft (other _ (by simp)), hleft (other _ (by simp))]
    rfl
  rw [Attributes.getAll_eq, Attributes.getAll_eq, values, Attributes.valuesOf_append,
    valuesOf_renamed (other _ (by simp)), Attributes.valuesOf_pair_of_ne (other _ (by simp)),
    List.append_nil]
  exact Attributes.valuesOf_filter hkept

/-- A name that is left out has no value but the digest. -/
theorem getAll_left
    (values : as.toList = renamed v (carried p) ++ [(Name.messageAuthenticator, digest)])
    (left : name ∈ [Name.proxyState, Name.messageAuthenticator]) :
    as.getAll name = Attributes.valuesOf name [(Name.messageAuthenticator, digest)] := by
  have hdevice : ∀ left ∈ [Name.proxyState, Name.messageAuthenticator],
      Name.same Name.nasIdentifier left = false := by decide +kernel
  have hnone : Attributes.valuesOf name (carried p) = [] := by
    refine Attributes.valuesOf_of_ne fun a ha => ?_
    have hkeep := (List.mem_filter.mp ha).2
    rw [Bool.and_eq_true, Bool.not_eq_true', Bool.not_eq_true'] at hkeep
    rcases List.mem_cons.mp left with rfl | hname
    · exact hkeep.2
    · rw [List.mem_singleton.mp hname]
      exact hkeep.1
  rw [Attributes.getAll_eq, values, Attributes.valuesOf_append,
    valuesOf_renamed (hdevice name left), hnone, List.nil_append]

/-- The name of the device is the one that was given. -/
theorem getAll_device {value : Value} (values : as.toList =
      renamed (some value) (carried p) ++ [(Name.messageAuthenticator, digest)]) :
    as.getAll Name.nasIdentifier = [value] := by
  have hother : Name.same Name.messageAuthenticator Name.nasIdentifier = false := by
    rw [Name.same_comm]
    exact device_ne_signature
  rw [Attributes.getAll_eq, values, Attributes.valuesOf_append,
    Attributes.valuesOf_pair_of_ne hother, List.append_nil]
  exact Attributes.valuesOf_placed Name.nasIdentifier value (carried p)

end Names

/-- **The remote server reads the request that was read**, whatever the secret and the authenticator
that it is written with. -/
theorem relayed_of_write {ds : Digests} {nasSecret secret : Secret} {encoding : PasswordEncoding}
    {request : Option Block} {inbound bs : Bytes} {p : Packet} {nas : Option String}
    {drawn : Block} {identifier : UInt8}
    (read : ReadingContext.read ⟨ds, .standard, nasSecret, encoding⟩ request inbound = .ok p)
    (written : (WritingContext.mk ds .standard).write
      { outbound p secret nas drawn with identifier } = .ok bs) :
    ∃ q, ReadingContext.read ⟨ds, .standard, secret, .utf8⟩ none bs = .ok q ∧
      Relayed p nas identifier q := by
  have hread : ∀ pair ∈ p.attributes.toList, ∃ e, ReadUnder pair e :=
    fun pair hpair => readUnder_of_read rfl read hpair
  obtain ⟨as, hpacket, hvalues⟩ := outbound_spec hread secret nas drawn
  rw [hpacket identifier] at written
  obtain ⟨ts, us, w⟩ := written_of_write written
  obtain ⟨digest, hdigest, hlist⟩ := toList_received_outbound hread hvalues w
  refine ⟨_, read_of_written w (legible_outbound hread hvalues).answersNone .utf8, ?_⟩
  refine ⟨rfl, rfl, ?_, ?_, ⟨digest, hdigest, hlist⟩, ?_, ?_⟩
  · have hother : ∀ changed ∈ [Name.nasIdentifier, Name.proxyState, Name.messageAuthenticator],
        Name.same changed Name.userPassword = false := by decide +kernel
    have hpasswords := getAll_kept hlist hother
    unfold Packet.userPassword? Attributes.text? Attributes.get?
    rw [hpasswords]
  · rintro name rfl
    unfold Packet.nasIdentifier? Packet.string? Attributes.get?
    rw [getAll_device hlist]
    exact congrArg some (Value.asString_heard name)
  · have hother : Name.same Name.messageAuthenticator Name.proxyState = false := by decide +kernel
    exact (getAll_left hlist (by decide)).trans (Attributes.valuesOf_pair_of_ne hother _)
  · rw [getAll_left hlist (by decide), Attributes.valuesOf_pair]
    rfl

/-- A password can be read of a request. -/
theorem readUnder_password :
    ReadUnder (passwordEntry.name, .text "pass") passwordEntry where
  defines := (Dictionary.of_byCode? byCode?_userPassword).1
  name := rfl
  plain := fun _ => by decide
  password := fun _ _ => ⟨"pass", rfl, by unfold Utf8.Trimmed; decide +kernel⟩
  value := fun hother => absurd ⟨rfl, rfl⟩ hother

theorem length_wireValue_password (ctx : WritingContext) (p : Packet) :
    (wireValue ctx p passwordEntry (.text "pass")).length ≤ maxValueSize passwordEntry := by
  have hhidden : wireValue ctx p passwordEntry (.text "pass") = HiddenPassword.hide ctx.digests
      p.secret.bytes (passwordAuthenticator p) (Value.text "pass").encode := if_pos ⟨rfl, rfl⟩
  rw [hhidden, HiddenPassword.length_hide]
  decide +kernel

/-- A request with a password is read by the server that it was sent to. -/
theorem exists_read_password : ∃ inbound p,
    ReadingContext.read ⟨.standard, .standard, passwordOnly.secret, .utf8⟩ none inbound = .ok p ∧
    p.attributes.toList = [(passwordEntry.name, .text "pass")] := by
  have hvalues : passwordOnly.attributes.toList = [(passwordEntry.name, .text "pass")] := rfl
  have hfound := Dictionary.byName?_standard readUnder_password.defines
  have hlegible : Legible .standard passwordOnly := by
    refine ⟨Or.inl rfl, fun pair hpair e he _ => ?_, fun _ => rfl, fun _ _ _ _ _ _ => ⟨rfl, rfl⟩⟩
    rw [hvalues] at hpair
    rw [List.mem_singleton.mp hpair, hfound] at he
    rw [← Option.some.inj he]
    decide
  obtain ⟨inbound, hinbound⟩ : ∃ bs, (WritingContext.mk .standard .standard).write passwordOnly =
      .ok bs := by
    refine exists_write (fun pair hpair => ⟨passwordEntry, ?_⟩) (by rw [hvalues]; decide)
    rw [hvalues] at hpair
    rw [List.mem_singleton.mp hpair]
    exact ⟨hfound, length_wireValue_password _ _⟩
  obtain ⟨p, us, hread, -, -, -, hlength, -, hp⟩ := read_write_attributes hlegible hinbound .utf8
  refine ⟨inbound, p, hread, ?_⟩
  rw [hp, hvalues]
  exact flatMap_zip_of_forall (f := fun a (u : Tlv) => readBack .standard .utf8 a u.value)
    (.cons (fun u => readBack_of_readUnder readUnder_password (by decide) u.value) .nil) hlength

/-- A request with a password is relayed, with a name for the device that it had not. -/
theorem relayed_password : ∃ inbound p bs,
    ReadingContext.read ⟨.standard, .standard, passwordOnly.secret, .utf8⟩ none inbound = .ok p ∧
    p.attributes.toList = [(Name.userPassword, .text "pass")] ∧
    (WritingContext.mk .standard .standard).write
      { outbound p (.ofString "remote") (some "gateway") .zero with identifier := 7 } = .ok bs ∧
    ∃ q, ReadingContext.read ⟨.standard, .standard, .ofString "remote", .utf8⟩ none bs = .ok q ∧
      Relayed p (some "gateway") 7 q := by
  obtain ⟨inbound, p, hread, hvalues⟩ := exists_read_password
  obtain ⟨as, hpacket, has⟩ := outbound_spec (fun _ hpair => readUnder_of_read rfl hread hpair)
    (.ofString "remote") (some "gateway") .zero
  have hcarried : renamed ((some "gateway").map .text) (carried p) =
      [(passwordEntry.name, .text "pass"), (deviceEntry.name, .text "gateway")] := by
    unfold carried
    rw [hvalues]
    decide +kernel
  rw [hcarried] at has
  obtain ⟨bs, hbs⟩ : ∃ bs, (WritingContext.mk .standard .standard).write
      (requestWith 7 (.ofString "remote") .zero as) = .ok bs := by
    have hsent : (requestWith 7 (.ofString "remote") .zero as).attributes.toList = _ := has
    refine exists_write (fun pair hpair => ?_) (by rw [hsent]; decide)
    rw [hsent] at hpair
    rcases List.mem_append.mp hpair with hpair | hpair
    · rcases List.mem_cons.mp hpair with rfl | hpair
      · exact ⟨passwordEntry, Dictionary.byName?_standard readUnder_password.defines,
          length_wireValue_password _ _⟩
      · rw [List.mem_singleton.mp hpair]
        have hdefines : deviceEntry ∈ Dictionary.standard.entries := mem_standard (by decide)
        refine ⟨deviceEntry, Dictionary.byName?_standard hdefines, ?_⟩
        rw [wireValue_of_ne _ (by decide) (by decide)]
        decide +kernel
    · rw [List.mem_singleton.mp hpair]
      have hdefines : signatureEntry ∈ Dictionary.standard.entries := mem_standard (by decide)
      refine ⟨signatureEntry, Dictionary.byName?_standard hdefines, ?_⟩
      rw [wireValue_messageAuthenticator rfl rfl]
      decide
  refine ⟨inbound, p, bs, hread, hvalues, ?_, ?_⟩
  · rw [hpacket]
    exact hbs
  · exact relayed_of_write hread ((congrArg _ (hpacket 7)).trans hbs)

end AccessGate.Remote
