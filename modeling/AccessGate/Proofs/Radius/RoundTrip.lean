import AccessGate.Proofs.Radius.Delivery
import AccessGate.Proofs.Radius.Passwords
import AccessGate.Proofs.Text.Numerals

/-!
# What is written is read back

A packet that is written and read again keeps its values: each comes back as its own octets say,
under the dictionary's spelling, in the packet's order.

* `contribution_of_writes`: what the reader makes of one attribute is what the writer's value comes
  back as (`readBack`);
* `read_write_attributes`: so the values of the whole packet come back.

A password comes back without the zeros at its end, and only where the reader sees the authenticator
that hid it; a Message-Authenticator comes back as the digest on the wire.
-/

namespace AccessGate.Radius

open WritingContext ReadingContext

/-! ## 1. Spellings -/

namespace Dictionary

/-- A name in the spelling of the dictionary. -/
def spelling (d : Dictionary) (name : Name) : Name :=
  match d.byName? name with
  | some e => e.name
  | none => name

theorem same_spelling (d : Dictionary) (name : Name) : Name.same (d.spelling name) name = true := by
  unfold spelling
  split
  · rename_i e he
    exact (of_byName? he).2
  · exact Name.same_iff.mpr rfl

end Dictionary

/-! ## 2. What one attribute comes back as -/

/-- What a value comes back as, `wire` the octets of its attribute. -/
def readBack (d : Dictionary) (encoding : PasswordEncoding) (pair : Name × Value) (wire : Bytes) :
    List (Name × Value) :=
  match d.byName? pair.1 with
  | none => []
  | some e =>
    if e.vendor = none ∧ e.code = Attribute.messageAuthenticator then defined (some e) wire
    else if e.vendor = none ∧ e.code = Attribute.userPassword then
      [(e.name, .text (encoding.decode pair.2.encode.trimZeros))]
    else defined (some e) pair.2.encode

/-- A packet that can be read back. -/
structure Legible (d : Dictionary) (p : Packet) : Prop where
  /-- Every definition that it uses is found again. -/
  refound : d = .standard ∨ ∀ pair ∈ p.attributes.toList, ∀ e, d.byName? pair.1 = some e →
    d.Refinds e
  /-- None of its values is the bare attribute of a vendor. -/
  plain : ∀ pair ∈ p.attributes.toList, ∀ e, d.byName? pair.1 = some e → e.vendor = none →
    e.code ≠ Attribute.vendorSpecific
  answersNone : p.AnswersNone
  /-- The authenticator on the wire is the one that hid its passwords. -/
  password : ∀ pair ∈ p.attributes.toList, ∀ e, d.byName? pair.1 = some e → e.vendor = none →
    e.code = Attribute.userPassword →
      p.requestAuthenticator = none ∧ p.code.hasComputedAuthenticator = false

variable {ctx : WritingContext} {p : Packet} {bs : Bytes} {ts us : List Tlv} {d : Dictionary}

theorem Legible.refinds (legible : Legible d p) {pair : Name × Value}
    (hpair : pair ∈ p.attributes.toList) {e : Entry} (he : d.byName? pair.1 = some e) :
    d.Refinds e := by
  rcases legible.refound with rfl | hall
  · exact Dictionary.refinds_standard (Dictionary.of_byName? he).1
  · exact hall pair hpair e he

/-- A vendor's attribute holds one of the vendor's own. -/
theorem readWhile_encode {t : Tlv} (fits : t.value.length ≤ 253) :
    Tlv.readWhile t.encode = [t] := by
  have hlen : (UInt8.ofNat (t.value.length + 2)).toNat = t.value.length + 2 := by
    rw [UInt8.toNat_ofNat']
    omega
  unfold Tlv.encode Tlv.readWhile
  simp only [hlen, Nat.add_sub_cancel, List.take_length, List.drop_length]
  rw [if_neg (by omega)]
  unfold Tlv.readWhile
  rfl

/-- **What is read of a vendor's attribute** is what its octets say under the vendor's
definition. -/
theorem vendorValues_wrap {key : VendorKey} {bs : Bytes} (fits : bs.length ≤ 253) :
    vendorValues d (Bytes.ofNat 4 key.vendor.toNat ++ (Tlv.mk key.code bs).encode) =
      defined (d.byVendor? key) bs := by
  have hlt : key.vendor.toNat < 256 ^ 4 := Nat.lt_of_lt_of_eq key.vendor.toNat_lt (by decide)
  have hvendor : UInt32.ofNat (Bytes.toNat (Bytes.ofNat 4 key.vendor.toNat)) = key.vendor := by
    rw [Bytes.toNat_ofNat, Nat.mod_eq_of_lt hlt]
    exact UInt32.ofNat_toNat
  have htake : (Bytes.ofNat 4 key.vendor.toNat ++ (Tlv.mk key.code bs).encode).take 4 =
      Bytes.ofNat 4 key.vendor.toNat := List.take_left' (Bytes.length_ofNat 4 _)
  have hdrop : (Bytes.ofNat 4 key.vendor.toNat ++ (Tlv.mk key.code bs).encode).drop 4 =
      (Tlv.mk key.code bs).encode := List.drop_left' (Bytes.length_ofNat 4 _)
  have hlong : ¬ (Bytes.ofNat 4 key.vendor.toNat ++ (Tlv.mk key.code bs).encode).length < 6 := by
    simp only [List.length_append, Bytes.length_ofNat, Tlv.length_encode, Tlv.size]
    omega
  have hread : Tlv.readWhile (Tlv.mk key.code bs).encode = [⟨key.code, bs⟩] := readWhile_encode fits
  unfold vendorValues
  rw [if_neg hlong]
  simp only [htake, hdrop, hvendor, hread]
  exact List.append_nil _

/-- What is not signed is sent as it was written. -/
theorem eq_of_stamped {t u : Tlv} (h : t.Stamped u)
    (code : t.code ≠ Attribute.messageAuthenticator) : u = t := by
  rcases h with rfl | ⟨rfl, -⟩
  · rfl
  · exact absurd rfl code

/-- A value that is neither a password nor a Message-Authenticator is written as it is. -/
theorem wireValue_of_ne {e : Entry} (v : Value)
    (password : ¬ (e.vendor = none ∧ e.code = Attribute.userPassword))
    (signature : ¬ (e.vendor = none ∧ e.code = Attribute.messageAuthenticator)) :
    wireValue ctx p e v = v.encode := by
  unfold wireValue
  rw [if_neg password, if_neg signature]

theorem wrap_of_none {e : Entry} (vendor : e.vendor = none) (bs : Bytes) :
    wrap e bs = ⟨e.code, bs⟩ := by
  unfold wrap
  rw [vendor]

theorem wrap_of_some {e : Entry} {key : VendorKey} (vendor : e.vendor = some key) (bs : Bytes) :
    wrap e bs = ⟨Attribute.vendorSpecific,
      Bytes.ofNat 4 key.vendor.toNat ++ (Tlv.mk key.code bs).encode⟩ := by
  unfold wrap
  rw [vendor]

section Contribution

variable {pair : Name × Value} {e : Entry} {t u : Tlv} {a : Block} {encoding : PasswordEncoding}

/-- A vendor's value comes back as its octets say. -/
theorem contribution_of_vendor (w : Writes ctx p pair e t) (stamped : t.Stamped u)
    {key : VendorKey} (vendor : e.vendor = some key)
    (refound : ctx.dictionary.byVendor? key = some e) :
    contribution ⟨ctx.digests, ctx.dictionary, p.secret, encoding⟩ a u =
      readBack ctx.dictionary encoding pair u.value := by
  have hvendor (c : UInt8) : ¬ (e.vendor = none ∧ e.code = c) := by
    rw [vendor]
    exact fun h => nomatch h.1
  have ht : t = ⟨Attribute.vendorSpecific,
      Bytes.ofNat 4 key.vendor.toNat ++ (Tlv.mk key.code pair.2.encode).encode⟩ := by
    rw [w.wire, wrap_of_some vendor, wireValue_of_ne _ (hvendor _) (hvendor _)]
  have hother : Attribute.vendorSpecific ≠ Attribute.messageAuthenticator := by decide
  obtain rfl := eq_of_stamped stamped (by rw [ht]; exact hother)
  have hfits := w.fits
  rw [ht] at hfits ⊢
  simp only [List.length_append, Bytes.length_ofNat, Tlv.length_encode, Tlv.size] at hfits
  unfold contribution readBack
  rw [if_pos rfl, vendorValues_wrap (by omega), refound, w.found]
  simp only [if_neg (hvendor _)]

/-- A value under a code of its own is written under that code. -/
theorem code_of_plain (w : Writes ctx p pair e t) (stamped : t.Stamped u)
    (vendor : e.vendor = none) : u.code = e.code := by
  rw [stamped.code, w.wire, wrap_of_none vendor]

/-- A Message-Authenticator comes back as the digest on the wire. -/
theorem contribution_of_signature (w : Writes ctx p pair e t) (stamped : t.Stamped u)
    (vendor : e.vendor = none) (code : e.code = Attribute.messageAuthenticator)
    (refound : ctx.dictionary.byCode? e.code = some e) :
    contribution ⟨ctx.digests, ctx.dictionary, p.secret, encoding⟩ a u =
      readBack ctx.dictionary encoding pair u.value := by
  have hplain : e.code ≠ Attribute.vendorSpecific := by
    rw [code]
    decide
  have hpassword : e.code ≠ Attribute.userPassword := by
    rw [code]
    decide
  unfold contribution readBack
  rw [code_of_plain w stamped vendor, if_neg hplain, if_neg hpassword, refound, w.found]
  simp only [if_pos (And.intro vendor code)]

/-- A password comes back less the zeros at its end, where the reader sees the authenticator that
hid it. -/
theorem contribution_of_password (w : Writes ctx p pair e t) (stamped : t.Stamped u)
    (vendor : e.vendor = none) (code : e.code = Attribute.userPassword)
    (refound : ctx.dictionary.byCode? e.code = some e) (seen : a = passwordAuthenticator p) :
    contribution ⟨ctx.digests, ctx.dictionary, p.secret, encoding⟩ a u =
      readBack ctx.dictionary encoding pair u.value := by
  have hplain : e.code ≠ Attribute.vendorSpecific := by
    rw [code]
    decide
  have hsignature : e.code ≠ Attribute.messageAuthenticator := by
    rw [code]
    decide
  have hu := code_of_plain w stamped vendor
  obtain rfl := eq_of_stamped stamped (by rw [← stamped.code, hu]; exact hsignature)
  have hhidden : u.value = HiddenPassword.hide ctx.digests p.secret.bytes
      (passwordAuthenticator p) pair.2.encode := by
    rw [w.wire, wrap_of_none vendor]
    exact if_pos ⟨vendor, code⟩
  have hname : nameOf ctx.dictionary e.code = e.name := by
    unfold nameOf
    rw [refound]
  unfold contribution readBack
  rw [hu, if_neg hplain, if_pos code, hhidden, seen, HiddenPassword.reveal_hide, hname, w.found]
  simp only [if_neg fun h : _ ∧ _ => hsignature h.2, if_pos (And.intro vendor code)]

/-- Any other value comes back as its octets say. -/
theorem contribution_of_other (w : Writes ctx p pair e t) (stamped : t.Stamped u)
    (vendor : e.vendor = none) (plain : e.code ≠ Attribute.vendorSpecific)
    (signature : e.code ≠ Attribute.messageAuthenticator)
    (password : e.code ≠ Attribute.userPassword)
    (refound : ctx.dictionary.byCode? e.code = some e) :
    contribution ⟨ctx.digests, ctx.dictionary, p.secret, encoding⟩ a u =
      readBack ctx.dictionary encoding pair u.value := by
  have hu := code_of_plain w stamped vendor
  obtain rfl := eq_of_stamped stamped (by rw [← stamped.code, hu]; exact signature)
  have hvalue : u.value = pair.2.encode := by
    rw [w.wire, wrap_of_none vendor]
    exact wireValue_of_ne _ (fun h => password h.2) fun h => signature h.2
  unfold contribution readBack
  rw [hu, if_neg plain, if_neg password, refound, hvalue, w.found]
  simp only [if_neg fun h : _ ∧ _ => signature h.2, if_neg fun h : _ ∧ _ => password h.2]

end Contribution

/-- Only a packet that answers no request and computes no authenticator shows the authenticator that
hides its passwords. -/
theorem finalAuthenticator_of_own (request : p.requestAuthenticator = none)
    (computed : p.code.hasComputedAuthenticator = false) :
    finalAuthenticator ctx p us = passwordAuthenticator p := by
  unfold finalAuthenticator passwordAuthenticator
  rw [computed, request]
  rfl

/-- **What the reader makes of an attribute is what the value comes back as.** -/
theorem contribution_of_writes (legible : Legible ctx.dictionary p) {pair : Name × Value}
    (hpair : pair ∈ p.attributes.toList) {e : Entry} {t u : Tlv} (w : Writes ctx p pair e t)
    (stamped : t.Stamped u) (encoding : PasswordEncoding) :
    contribution ⟨ctx.digests, ctx.dictionary, p.secret, encoding⟩ (finalAuthenticator ctx p us) u =
      readBack ctx.dictionary encoding pair u.value := by
  have hrefinds := legible.refinds hpair w.found
  unfold Dictionary.Refinds at hrefinds
  cases hvendor : e.vendor with
  | some key =>
    rw [hvendor] at hrefinds
    exact contribution_of_vendor w stamped hvendor hrefinds
  | none =>
    rw [hvendor] at hrefinds
    by_cases hsignature : e.code = Attribute.messageAuthenticator
    · exact contribution_of_signature w stamped hvendor hsignature hrefinds
    · by_cases hpassword : e.code = Attribute.userPassword
      · obtain ⟨hrequest, hcomputed⟩ := legible.password pair hpair e w.found hvendor hpassword
        exact contribution_of_password w stamped hvendor hpassword hrefinds
          (finalAuthenticator_of_own hrequest hcomputed)
      · exact contribution_of_other w stamped hvendor (legible.plain pair hpair e w.found hvendor)
          hsignature hpassword hrefinds

/-! ## 3. The values of a packet -/

/-- A value comes back under the dictionary's spelling, or not at all. -/
theorem readBack_spread (d : Dictionary) (encoding : PasswordEncoding) (pair : Name × Value)
    (wire : Bytes) : ∃ ws, readBack d encoding pair wire = spread (d.spelling pair.1, ws) := by
  -- one value where the octets make sense, none where they do not
  have hdefined (e : Entry) (bs : Bytes) : ∃ ws, defined (some e) bs = spread (e.name, ws) := by
    unfold defined
    cases hv : Value.decode e.kind bs with
    | ok v => exact ⟨[v], by simp only [hv]; rfl⟩
    | error fault => exact ⟨[], by simp only [hv]; rfl⟩
  unfold readBack Dictionary.spelling
  cases d.byName? pair.1 with
  | none => exact ⟨[], rfl⟩
  | some e =>
    simp only
    split
    · exact hdefined e wire
    · split
      · exact ⟨[_], rfl⟩
      · exact hdefined e pair.2.encode

section Blocks

variable {R : Name × Value → Tlv → Prop} (c : Tlv → List (Name × Value)) (spelled : Name → Name)

/-- The values of one name come back as values of one name. -/
theorem exists_block (hc : ∀ pair u, R pair u → ∃ ws, c u = spread (spelled pair.1, ws))
    (name : Name) {vs : List Value} {us : List Tlv}
    (h : List.Forall₂ R (vs.map (Prod.mk name)) us) :
    ∃ ws, us.flatMap c = spread (spelled name, ws) := by
  induction vs generalizing us with
  | nil =>
    cases h
    exact ⟨[], rfl⟩
  | cons v vs ih =>
    cases h with
    | cons hd htl =>
      obtain ⟨ws, hws⟩ := hc _ _ hd
      obtain ⟨ws', hws'⟩ := ih htl
      refine ⟨ws ++ ws', ?_⟩
      rw [List.flatMap_cons, hws, hws']
      exact (List.map_append).symm

/-- The groups of a packet come back as blocks of their names. -/
theorem exists_blocks (hc : ∀ pair u, R pair u → ∃ ws, c u = spread (spelled pair.1, ws))
    {gs : List Group} {us : List Tlv}
    (h : List.Forall₂ R (gs.flatMap fun g => g.values.map (Prod.mk g.name)) us) :
    ∃ blocks : List (Name × List Value), us.flatMap c = blocks.flatMap spread ∧
      blocks.map Prod.fst = gs.map fun g => spelled g.name := by
  induction gs generalizing us with
  | nil =>
    cases h
    exact ⟨[], rfl, rfl⟩
  | cons g gs ih =>
    -- the attributes of this group come first, as many as it has values
    rw [List.flatMap_cons] at h
    have h₁ := List.forall₂_take (g.values.map (Prod.mk g.name)).length h
    have h₂ := List.forall₂_drop (g.values.map (Prod.mk g.name)).length h
    rw [List.take_left] at h₁
    rw [List.drop_left] at h₂
    obtain ⟨ws, hws⟩ := exists_block c spelled hc g.name h₁
    obtain ⟨blocks, hblocks, hnames⟩ := ih h₂
    refine ⟨(spelled g.name, ws) :: blocks, ?_, ?_⟩
    · rw [List.flatMap_cons, ← hws, ← hblocks, ← List.flatMap_append, List.take_append_drop]
    · rw [List.map_cons, List.map_cons, hnames]

/-- What stands for a value of a packet, told pair by pair. -/
theorem flatMap_of_forall {f : Name × Value → Tlv → List (Name × Value)}
    {pairs : List (Name × Value)} {us : List Tlv}
    (h : List.Forall₂ (fun pair u => c u = f pair u) pairs us) :
    us.flatMap c = (pairs.zip us).flatMap fun x => f x.1 x.2 := by
  induction h with
  | nil => rfl
  | cons hd _ ih => rw [List.flatMap_cons, List.zip_cons_cons, List.flatMap_cons, hd, ih]

end Blocks

namespace Written

/-- What is on the wire, value by value. -/
theorem wire (w : Written ctx p bs ts us) : List.Forall₂ (fun pair u => pair ∈ p.attributes.toList ∧
    ∃ t, (∃ e, Writes ctx p pair e t) ∧ t.Stamped u) p.attributes.toList us :=
  (List.forall₂_and_left _ _).mpr ⟨fun _ h => h, forall_comp w.values w.stamped⟩

end Written

/-- Each attribute contributes what its value comes back as. -/
theorem contribution_wire (legible : Legible ctx.dictionary p) (w : Written ctx p bs ts us)
    (encoding : PasswordEncoding) : List.Forall₂ (fun pair u =>
      contribution ⟨ctx.digests, ctx.dictionary, p.secret, encoding⟩
        (finalAuthenticator ctx p us) u = readBack ctx.dictionary encoding pair u.value)
      p.attributes.toList us := by
  refine w.wire.imp fun pair u hwire => ?_
  obtain ⟨hpair, t, ⟨e, hwrites⟩, hstamped⟩ := hwire
  exact contribution_of_writes legible hpair hwrites hstamped encoding

/-- **The values that the reader gets are what the packet's values come back as.** -/
theorem toList_received (legible : Legible ctx.dictionary p) (w : Written ctx p bs ts us)
    (encoding : PasswordEncoding) : (received ctx p encoding us).attributes.toList =
      (p.attributes.toList.zip us).flatMap fun x =>
        readBack ctx.dictionary encoding x.1 x.2.value := by
  obtain ⟨c, hc⟩ : ∃ c, c = contribution ⟨ctx.digests, ctx.dictionary, p.secret, encoding⟩
    (finalAuthenticator ctx p us) := ⟨_, rfl⟩
  have hwire := contribution_wire legible w encoding
  have hattributes : (received ctx p encoding us).attributes = .ofList (us.flatMap c) := by
    rw [hc]
    rfl
  rw [← hc] at hwire
  rw [hattributes, ← flatMap_of_forall c hwire]
  obtain ⟨blocks, hblocks, hnames⟩ := exists_blocks c ctx.dictionary.spelling
    (fun pair u (hu : c u = readBack ctx.dictionary encoding pair u.value) => by
      rw [hu]
      exact readBack_spread ctx.dictionary encoding pair u.value) hwire
  -- the names of a packet are distinct, and so are their spellings
  have hdistinct : (blocks.map Prod.fst).Pairwise fun a b => Name.same a b = false := by
    rw [hnames, List.pairwise_map]
    refine (List.pairwise_map.mp p.attributes.distinct).imp fun hne => ?_
    exact Name.same_false_of_same hne (Dictionary.same_spelling _ _)
      (Dictionary.same_spelling _ _)
  rw [hblocks]
  exact Attributes.toList_ofList hdistinct

/-- **A packet that is written and read again keeps its values**: in its order and under the
dictionary's spelling, each as its own octets say, or as those on the wire do where it is a
Message-Authenticator, or without the zeros at its end where it is a password. -/
theorem read_write_attributes (legible : Legible ctx.dictionary p) (h : ctx.write p = .ok bs)
    (encoding : PasswordEncoding) : ∃ q us,
      ReadingContext.read ⟨ctx.digests, ctx.dictionary, p.secret, encoding⟩
        p.requestAuthenticator bs = .ok q ∧
      q.code = p.code ∧ q.identifier = p.identifier ∧
      Tlv.readAll headSize (bs.drop headSize) = .ok us ∧
      us.length = p.attributes.toList.length ∧
      (∀ u ∈ us, u.code = Attribute.messageAuthenticator → u.value.length = 16) ∧
      q.attributes.toList = (p.attributes.toList.zip us).flatMap fun x =>
        readBack ctx.dictionary encoding x.1 x.2.value := by
  obtain ⟨ts, us, w⟩ := written_of_write h
  have hread := read_of_written w legible.answersNone encoding
  exact ⟨received ctx p encoding us, us, hread, rfl, rfl, w.readAll, w.wire.length_eq.symm,
    fun _ => w.length_signature, toList_received legible w encoding⟩

/-- A request with a password and nothing else. -/
def passwordOnly : Packet :=
  { Packet.new .accessRequest 1 (.ofString "secret") .zero with
    attributes := ⟨[⟨Name.userPassword, [.text "pass"]⟩], by simp, by simp⟩ }

/-- The definition of a password. -/
def passwordEntry : Entry := ⟨Attribute.userPassword, Name.userPassword, .octets, none⟩

/-- A dictionary of this definition alone. -/
def passwordDictionary : Dictionary := Dictionary.empty.insert passwordEntry

/-- A password is written, and comes back as it was. -/
theorem read_write_password : Legible passwordDictionary passwordOnly ∧
    ∃ bs, (WritingContext.mk .standard passwordDictionary).write passwordOnly = .ok bs ∧
      ∃ q, ReadingContext.read ⟨.standard, passwordDictionary, passwordOnly.secret, .utf8⟩
        passwordOnly.requestAuthenticator bs = .ok q ∧
        q.attributes.toList = [(Name.userPassword, .text "pass")] := by
  have hvalues : passwordOnly.attributes.toList = [(Name.userPassword, .text "pass")] := rfl
  have hfound : passwordDictionary.byName? Name.userPassword = some passwordEntry :=
    (Dictionary.byName?_insert _ _ _).trans (if_pos (Name.same_iff.mpr rfl))
  have hentry : ∀ pair ∈ passwordOnly.attributes.toList, ∀ e,
      passwordDictionary.byName? pair.1 = some e → e = passwordEntry := by
    intro pair hpair e he
    rw [hvalues] at hpair
    rw [List.mem_singleton.mp hpair, hfound] at he
    exact (Option.some.inj he).symm
  have hlegible : Legible passwordDictionary passwordOnly := by
    refine ⟨Or.inr fun pair hpair e he => ?_, fun pair hpair e he _ => ?_, fun _ => rfl,
      fun _ _ _ _ _ _ => ⟨rfl, rfl⟩⟩
    · rw [hentry pair hpair e he]
      rfl
    · rw [hentry pair hpair e he]
      decide
  obtain ⟨bs, hbs⟩ : ∃ bs, (WritingContext.mk .standard passwordDictionary).write passwordOnly =
      .ok bs := by
    refine exists_write (fun pair hpair => ⟨passwordEntry, ?_, ?_⟩) (by rw [hvalues]; decide)
    · rw [hvalues] at hpair
      rw [List.mem_singleton.mp hpair]
      exact hfound
    · have hhidden : wireValue ⟨.standard, passwordDictionary⟩ passwordOnly passwordEntry pair.2 =
          HiddenPassword.hide .standard passwordOnly.secret.bytes
            (passwordAuthenticator passwordOnly) pair.2.encode := if_pos ⟨rfl, rfl⟩
      rw [hvalues] at hpair
      rw [hhidden, HiddenPassword.length_hide, List.mem_singleton.mp hpair]
      decide +kernel
  obtain ⟨q, us, hread, -, -, -, hlength, -, hq⟩ := read_write_attributes hlegible hbs .utf8
  refine ⟨hlegible, bs, hbs, q, hread, ?_⟩
  obtain ⟨u, rfl⟩ := List.length_eq_one_iff.mp (hlength.trans (congrArg List.length hvalues))
  have hback : readBack passwordDictionary .utf8 (Name.userPassword, .text "pass") u.value =
      [(Name.userPassword, .text "pass")] := by
    have htext : PasswordEncoding.utf8.decode (Utf8.encode "pass").trimZeros = "pass" := by
      decide +kernel
    have hother : passwordEntry.code ≠ Attribute.messageAuthenticator := by decide
    unfold readBack
    rw [hfound]
    simp only [if_neg fun h : _ ∧ _ => hother h.2]
    rw [if_pos ⟨rfl, rfl⟩]
    exact congrArg (fun s => [(Name.userPassword, Value.text s)]) htext
  rw [hq, hvalues]
  exact (List.append_nil _).trans hback

end AccessGate.Radius
