import AccessGate.Net.ProxyHeader
import AccessGate.Proofs.Checks
import AccessGate.Proofs.Lists
import AccessGate.Proofs.Net.Addresses
import AccessGate.Proofs.Radius.Grammar
import AccessGate.Proofs.Text.Utf8

/-!
# Datagrams with a header

A relay puts a line before a datagram, and whoever can make a line that is taken for one can pass
for another device. This file says which datagrams have a header and what is left of them, without
the reader:

* `Names`: the lines that name a sender or leave it unknown, and `ofLine_ok_iff`: they are those
  that are read;
* `Wraps`: what is left of a datagram, and `unwrap_ok_iff`: that is what is unwrapped;
* `wraps_header`: a header as it is written names its sender, and always ends in time;
* `unwrap_exact`: all of it together, and that no packet is taken for a datagram with a header.
-/

namespace AccessGate

/-! ## 1. Fields and line ends -/

namespace Text

/-- The pieces between the occurrences of a character. -/
theorem splitChars_eq_splitOn (c : Char) (cs : List Char) :
    splitChars (· == c) cs = cs.splitOn c := by
  rw [List.splitOn_eq_splitOnP]
  induction cs with
  | nil => rfl
  | cons d cs ih =>
    rw [splitChars, ih, List.splitOnP_cons_eq_if_modifyHead]
    cases hpieces : cs.splitOnP (· == c) with
    | nil => exact absurd hpieces (List.splitOnP_ne_nil _ cs)
    | cons piece pieces => rfl

end Text

namespace Numeral

/-- A numeral has no blanks. -/
theorem blank_not_mem {bound n : Nat} {cs : List Char} (h : parseChars bound cs = .ok n) :
    ' ' ∉ cs := by
  have hdigits {ds : List Char} (digits : ∀ c ∈ ds, '0' ≤ c ∧ c ≤ '9') : ' ' ∉ ds :=
    fun hblank => absurd (digits ' ' hblank) (by decide)
  cases (parseChars_ok_iff.mp h).1 with
  | plain _ digits => exact hdigits digits
  | signed _ digits =>
    rw [List.mem_cons, not_or]
    exact ⟨by decide, hdigits digits⟩

end Numeral

/-- The octets of ASCII characters are their numbers. -/
theorem Utf8.encodeChars_of_ascii {cs : List Char} (ascii : ∀ c ∈ cs, c.toNat < 0x80) :
    encodeChars cs = cs.map fun c => UInt8.ofNat c.toNat := by
  induction cs with
  | nil => rfl
  | cons c cs ih =>
    have hrest := ih fun d hd => ascii d (List.mem_cons_of_mem _ hd)
    have hfirst : encodeChar c = [UInt8.ofNat c.toNat] := if_pos (ascii c List.mem_cons_self)
    unfold encodeChars at hrest ⊢
    rw [List.flatMap_cons, hrest, hfirst]
    rfl

namespace ProxyHeader

variable {line : List Char}

/-- Nothing is left of the carriage returns at the end. -/
theorem exists_returns (line : List Char) : ∃ count,
    line = trimReturns line ++ List.replicate count '\r' ∧
      (trimReturns line).getLast? ≠ some '\r' := by
  obtain ⟨count, hline⟩ := exists_eq_rdropWhile_append '\r' line
  exact ⟨count, hline, rdropWhile_eq_self_iff_last.mp (List.rdropWhile_idempotent _ line)⟩

theorem trimReturns_returns (last : line.getLast? ≠ some '\r') (count : Nat) :
    trimReturns (line ++ List.replicate count '\r') = line :=
  (rdropWhile_append_replicate '\r' line count).trans (rdropWhile_eq_self_iff_last.mpr last)

/-! ## 2. Lines -/

/-- The protocols, with the version of their addresses. -/
inductive Carries : List Char → Family → Prop where
  | tcp4 : Carries "TCP4".toList .v4
  | udp4 : Carries "UDP4".toList .v4
  | tcp6 : Carries "TCP6".toList .v6
  | udp6 : Carries "UDP6".toList .v6

theorem family?_eq_some_iff {protocol : List Char} {f : Family} :
    family? protocol = some f ↔ Carries protocol f := by
  constructor
  · intro h
    unfold family? at h
    split at h
    · rename_i hfour
      obtain rfl := Option.some.inj h
      rcases hfour with rfl | rfl
      · exact .tcp4
      · exact .udp4
    · split at h
      · rename_i hsix
        obtain rfl := Option.some.inj h
        rcases hsix with rfl | rfl
        · exact .tcp6
        · exact .udp6
      · cases h
  · intro h
    cases h <;> rfl

/-- The fields of a header, one space between them. -/
def joined (protocol source destination sourcePort destinationPort : List Char) : List Char :=
  [' '].intercalate ["PROXY".toList, protocol, source, destination, sourcePort, destinationPort]

/-- What a line says of the sender. -/
inductive Names : List Char → Option Endpoint → Prop where
  | unknown : Names "PROXY UNKNOWN".toList none
  | unknownMore (more : List Char) : Names ("PROXY UNKNOWN ".toList ++ more) none
  | sender {protocol source destination sourcePort destinationPort : List Char} {f : Family}
      {a b : IpAddress} {m n : Nat} (carries : Carries protocol f)
      (from_ : IpAddress.parseChars? source = some a) (fromFamily : familyOf a = f)
      (to_ : IpAddress.parseChars? destination = some b) (toFamily : familyOf b = f)
      (fromPort : Numeral.parseChars Numeral.max16 sourcePort = .ok m)
      (toPort : Numeral.parseChars Numeral.max16 destinationPort = .ok n) :
      Names (joined protocol source destination sourcePort destinationPort)
        (some (.make a (UInt16.ofNat m)))

theorem address_ok_iff {fault : String → Malformation} {field : List Char} {a : IpAddress} :
    address fault field = .ok a ↔ IpAddress.parseChars? field = some a := by
  unfold address
  cases IpAddress.parseChars? field <;> simp

theorem port_ok_iff {fault : String → Malformation} {field : List Char} {p : UInt16} :
    port fault field = .ok p ↔
      ∃ n, Numeral.parseChars Numeral.max16 field = .ok n ∧ p = UInt16.ofNat n := by
  unfold port
  cases Numeral.parseChars Numeral.max16 field <;> simp [eq_comm]

theorem sender_ok_iff {protocol source destination sourcePort destinationPort : List Char}
    {e : Endpoint} :
    sender protocol source destination sourcePort destinationPort = .ok e ↔
      ∃ f a b m n, Carries protocol f ∧
        (IpAddress.parseChars? source = some a ∧ familyOf a = f) ∧
        (IpAddress.parseChars? destination = some b ∧ familyOf b = f) ∧
        Numeral.parseChars Numeral.max16 sourcePort = .ok m ∧
        Numeral.parseChars Numeral.max16 destinationPort = .ok n ∧
        e = .make a (UInt16.ofNat m) := by
  unfold sender
  simp only [bind_ok_iff, address_ok_iff, port_ok_iff]
  constructor
  · intro h
    obtain ⟨a, ha, b, hb, p, ⟨m, hm, rfl⟩, q, ⟨n, hn, rfl⟩, hend⟩ := h
    split at hend
    · cases hend
    · rename_i f hf
      split at hend
      · rename_i hfamily
        exact ⟨f, a, b, m, n, family?_eq_some_iff.mp hf, ⟨ha, hfamily.1⟩, ⟨hb, hfamily.2⟩, hm, hn,
          (Except.ok.inj hend).symm⟩
      · cases hend
  · intro h
    obtain ⟨f, a, b, m, n, hf, ⟨ha, hfa⟩, ⟨hb, hfb⟩, hm, hn, rfl⟩ := h
    refine ⟨a, ha, b, hb, _, ⟨m, hm, rfl⟩, _, ⟨n, hn, rfl⟩, ?_⟩
    rw [family?_eq_some_iff.mpr hf]
    exact if_pos ⟨hfa, hfb⟩

theorem map_some_ok_iff {ε α : Type} {x : Except ε α} {o : Option α} :
    x.map some = .ok o ↔ ∃ a, x = .ok a ∧ o = some a := by
  cases x <;> simp [Except.map, eq_comm]

/-- No field that can be read has a blank, so the fields are those that were joined. -/
theorem splitOn_joined {protocol source destination sourcePort destinationPort : List Char}
    {f : Family} {a b : IpAddress} {m n : Nat} (carries : Carries protocol f)
    (from_ : IpAddress.parseChars? source = some a)
    (to_ : IpAddress.parseChars? destination = some b)
    (fromPort : Numeral.parseChars Numeral.max16 sourcePort = .ok m)
    (toPort : Numeral.parseChars Numeral.max16 destinationPort = .ok n) :
    (joined protocol source destination sourcePort destinationPort).splitOn ' ' =
      ["PROXY".toList, protocol, source, destination, sourcePort, destinationPort] := by
  have hprotocol : ' ' ∉ protocol := by
    cases carries <;> decide
  have haddress {field : List Char} {a : IpAddress}
      (h : IpAddress.parseChars? field = some a) : ' ' ∉ field := fun hblank =>
    absurd (IpAddress.sign_of_parseChars? h ' ' hblank) (by decide)
  refine List.splitOn_intercalate ' ' ?_ (List.cons_ne_nil _ _)
  simp only [List.forall_mem_cons]
  exact ⟨by decide, hprotocol, haddress from_, haddress to_, Numeral.blank_not_mem fromPort,
    Numeral.blank_not_mem toPort, nofun⟩

theorem splitOn_unknownMore (more : List Char) : ("PROXY UNKNOWN ".toList ++ more).splitOn ' ' =
    "PROXY".toList :: "UNKNOWN".toList :: more.splitOn ' ' := by
  show ("PROXY".toList ++ ' ' :: ("UNKNOWN".toList ++ ' ' :: more)).splitOn ' ' = _
  rw [List.splitOn_append_cons_self_of_not_mem (by decide),
    List.splitOn_append_cons_self_of_not_mem (by decide)]

theorem names_of_ofLine {source : Option Endpoint} (h : ofLine line = .ok source) :
    Names line source := by
  have hjoin : [' '].intercalate (line.splitOn ' ') = line := List.intercalate_splitOn ' '
  rw [← Text.splitChars_eq_splitOn] at hjoin
  unfold ofLine at h
  split at h
  · rename_i word protocol fields hfields
    rw [hfields] at hjoin
    split at h
    · cases h
    · rename_i hword
      obtain rfl := Classical.not_not.mp hword
      split at h
      · rename_i hprotocol
        subst hprotocol
        obtain rfl := Except.ok.inj h
        rw [← hjoin]
        cases fields with
        | nil => exact .unknown
        | cons field fields => exact .unknownMore ([' '].intercalate (field :: fields))
      · split at h
        · obtain ⟨e, hsender, rfl⟩ := map_some_ok_iff.mp h
          obtain ⟨f, a, b, m, n, carries, ⟨ha, hfa⟩, ⟨hb, hfb⟩, hm, hn, rfl⟩ :=
            sender_ok_iff.mp hsender
          rw [← hjoin]
          exact .sender carries ha hfa hb hfb hm hn
        · cases h
  · cases h

theorem Names.ofLine_ok {source : Option Endpoint} (h : Names line source) :
    ofLine line = .ok source := by
  unfold ofLine
  rw [Text.splitChars_eq_splitOn]
  cases h with
  | unknown => rfl
  | unknownMore more =>
    rw [splitOn_unknownMore]
    rfl
  | sender carries ha hfa hb hfb hm hn =>
    rename_i protocol source destination sourcePort destinationPort f a b m n
    have hknown : protocol ≠ "UNKNOWN".toList := by
      cases carries <;> decide
    have hsender := sender_ok_iff.mpr
      ⟨f, a, b, m, n, carries, ⟨ha, hfa⟩, ⟨hb, hfb⟩, hm, hn, rfl⟩
    rw [splitOn_joined carries ha hb hm hn]
    simp only [ne_eq, not_true_eq_false, ↓reduceIte, hknown, hsender]
    rfl

/-- **A line says exactly what can be read of it.** -/
theorem ofLine_ok_iff {source : Option Endpoint} :
    ofLine line = .ok source ↔ Names line source :=
  ⟨names_of_ofLine, Names.ofLine_ok⟩

/-! ## 3. Datagrams -/

section Datagrams

variable {datagram front payload : Bytes}

theorem isPresent_iff : isPresent datagram = true ↔ signature <+: datagram :=
  List.isPrefixOf_iff_prefix

/-- The line in front of the first newline. -/
theorem cut_newline (payload : Bytes) (first : 0x0A ∉ front) (short : front.length < window) :
    ((front ++ 0x0A :: payload).take window).takeWhile (· ≠ 0x0A) = front ∧
      front.length < ((front ++ 0x0A :: payload).take window).length := by
  have htake : (front ++ 0x0A :: payload).take window =
      front ++ 0x0A :: payload.take (window - front.length - 1) := by
    have hsize : window = front.length + (window - front.length - 1 + 1) := by omega
    rw [hsize, List.take_length_add_append, List.take_succ_cons]
    simp
  have hfront : ∀ b ∈ front, decide (b ≠ 0x0A) = true := by
    intro b hb
    exact decide_eq_true fun hnewline => first (hnewline ▸ hb)
  rw [htake]
  constructor
  · rw [List.takeWhile_append_of_pos hfront]
    simp
  · simp

/-- A header that ends in time is as good as its line. -/
theorem unwrap_terminated (present : signature <+: front ++ 0x0A :: payload) (first : 0x0A ∉ front)
    (short : front.length < window) {r : Relayed} :
    unwrap (front ++ 0x0A :: payload) = .ok r ↔ ∃ text source, Utf8.decodeChars? front = some text ∧
      ofLine (trimReturns text) = .ok source ∧ r = ⟨source, payload⟩ := by
  obtain ⟨hline, hlength⟩ := cut_newline payload first short
  have hrest : (front ++ 0x0A :: payload).drop (front.length + 1) = payload := by simp
  unfold unwrap
  simp only [isPresent_iff.mpr present, hline, hrest, Nat.ne_of_lt hlength, ↓reduceIte]
  cases Utf8.decodeChars? front with
  | none => simp
  | some text =>
    cases hsource : ofLine (trimReturns text) with
    | error cause => simp [hsource]
    | ok source => simp [hsource, eq_comm]

/-- A header that does not end in time is none. -/
theorem unwrap_unterminated (present : signature <+: datagram)
    (endless : 0x0A ∉ datagram.take window) : unwrap datagram = .error .unterminated := by
  have hall : ∀ b ∈ datagram.take window, decide (b ≠ 0x0A) = true := by
    intro b hb
    exact decide_eq_true fun hnewline => endless (hnewline ▸ hb)
  unfold unwrap
  simp only [isPresent_iff.mpr present, List.takeWhile_eq_self_iff.mpr hall, ↓reduceIte]

theorem unwrap_bare (plain : ¬ signature <+: datagram) : unwrap datagram = .ok ⟨none, datagram⟩ :=
  if_neg fun h => plain (isPresent_iff.mp h)

/-- What is left of a datagram. -/
inductive Wraps : Bytes → Relayed → Prop where
  /-- The text before the first newline, among the first 107 octets, is a line that names the sender
  and carriage returns; what follows the newline is left. -/
  | headed {line text : List Char} {source : Option Endpoint} {returns : Nat} {payload : Bytes}
      (names : Names line source) (last : line.getLast? ≠ some '\r')
      (ends : text = line ++ List.replicate returns '\r') (first : 0x0A ∉ Utf8.encodeChars text)
      (short : (Utf8.encodeChars text).length < window) :
      Wraps (Utf8.encodeChars text ++ 0x0A :: payload) ⟨source, payload⟩
  /-- Without the word in front everything is left. -/
  | bare {datagram : Bytes} (plain : ¬ signature <+: datagram) : Wraps datagram ⟨none, datagram⟩

/-- A line that names a sender starts with the word. -/
theorem Names.signature {source : Option Endpoint} (h : Names line source) :
    "PROXY".toList <+: line := by
  cases h with
  | unknown => exact ⟨" UNKNOWN".toList, rfl⟩
  | unknownMore more => exact ⟨" UNKNOWN ".toList ++ more, rfl⟩
  | sender => exact ⟨_, rfl⟩

/-- **What is unwrapped is what is left**, and nothing else is. -/
theorem unwrap_ok_iff {r : Relayed} : unwrap datagram = .ok r ↔ Wraps datagram r := by
  constructor
  · intro h
    by_cases present : signature <+: datagram
    · by_cases hmem : 0x0A ∈ datagram.take window
      · obtain ⟨front, rest, hcut, first⟩ := List.eq_append_cons_of_mem hmem
        have hdatagram : datagram = front ++ 0x0A :: (rest ++ datagram.drop window) := by
          rw [← List.cons_append, ← List.append_assoc, ← hcut, List.take_append_drop]
        have short : front.length < window := by
          have hsize := congrArg List.length hcut
          have hle := List.length_take_le window datagram
          simp only [List.length_append, List.length_cons] at hsize
          omega
        rw [hdatagram] at h present ⊢
        obtain ⟨text, source, htext, hnames, rfl⟩ := (unwrap_terminated present first short).mp h
        obtain ⟨returns, hends, hlast⟩ := exists_returns text
        obtain rfl := Utf8.encodeChars_of_decodeChars? htext
        exact .headed (ofLine_ok_iff.mp hnames) hlast hends first short
      · rw [unwrap_unterminated present hmem] at h
        cases h
    · rw [unwrap_bare present] at h
      rw [← Except.ok.inj h]
      exact .bare present
  · intro h
    cases h with
    | @headed line text source returns payload names last ends first short =>
      have present : signature <+: Utf8.encodeChars text ++ 0x0A :: payload := by
        obtain ⟨more, rfl⟩ := names.signature
        rw [ends]
        exact ⟨_, rfl⟩
      refine (unwrap_terminated present first short).mpr
        ⟨text, source, Utf8.decodeChars?_encodeChars text, ?_, rfl⟩
      rw [ends, trimReturns_returns last]
      exact ofLine_ok_iff.mpr names
    | bare plain => exact unwrap_bare plain

end Datagrams

/-! ## 4. Headers as they are written -/

section Written

variable {protocol : List Char} {f : Family} {source destination : IpAddress}
  {sourcePort destinationPort : UInt16}

/-- The line that names the sender, as it is written. -/
def header (protocol : List Char) (source destination : IpAddress)
    (sourcePort destinationPort : UInt16) : List Char :=
  joined protocol source.print.toList destination.print.toList (toString sourcePort.toNat).toList
    (toString destinationPort.toNat).toList

theorem port_parse (p : UInt16) :
    Numeral.parseChars Numeral.max16 (toString p.toNat).toList = .ok p.toNat := by
  rw [toList_toString]
  exact Numeral.parseChars_toDigits (Nat.le_of_lt_succ p.toNat_lt)

theorem names_header (carries : Carries protocol f) (from_ : familyOf source = f)
    (to_ : familyOf destination = f) :
    Names (header protocol source destination sourcePort destinationPort)
      (some (.make source sourcePort)) := by
  have hnames := Names.sender carries (IpAddress.parseChars?_print source) from_
    (IpAddress.parseChars?_print destination) to_ (port_parse sourcePort)
    (port_parse destinationPort)
  rw [UInt16.ofNat_toNat] at hnames
  exact hnames

/-- The characters of a line as it is written. -/
def lineSigns : List Char := "PROXY TCPUD".toList ++ Ipv6.signs

theorem header_eq : header protocol source destination sourcePort destinationPort =
    "PROXY ".toList ++ protocol ++ [' '] ++ source.print.toList ++ [' '] ++
      destination.print.toList ++ [' '] ++ (toString sourcePort.toNat).toList ++ [' '] ++
        (toString destinationPort.toNat).toList := by
  have hword : "PROXY ".toList = "PROXY".toList ++ [' '] := rfl
  unfold header joined
  simp only [List.intercalate_cons_cons, List.intercalate_singleton, List.append_assoc, hword]

theorem mem_header (carries : Carries protocol f) {c : Char}
    (h : c ∈ header protocol source destination sourcePort destinationPort) : c ∈ lineSigns := by
  have hword : "PROXY ".toList ⊆ lineSigns := by decide +kernel
  have hprotocol : protocol ⊆ lineSigns := by
    cases carries <;> decide +kernel
  have hblank : [' '] ⊆ lineSigns := by decide +kernel
  have haddress (a : IpAddress) : a.print.toList ⊆ lineSigns := by
    intro c hc
    refine List.mem_append_right _ ?_
    cases a with
    | v4 a => exact List.mem_cons_of_mem _ (Ipv4.mem_print hc)
    | v6 a => exact Ipv6.mem_print hc
  have hport (p : UInt16) : (toString p.toNat).toList ⊆ lineSigns := by
    intro c hc
    rw [toList_toString] at hc
    have hsigns : digitSigns ⊆ lineSigns := by decide +kernel
    exact hsigns (Endpoint.mem_digits hc)
  rw [header_eq] at h
  simp only [List.mem_append] at h
  rcases h with ((((((((h | h) | h) | h) | h) | h) | h) | h) | h) | h
  · exact hword h
  · exact hprotocol h
  · exact hblank h
  · exact haddress source h
  · exact hblank h
  · exact haddress destination h
  · exact hblank h
  · exact hport sourcePort h
  · exact hblank h
  · exact hport destinationPort h

/-- With its line end it fits among the octets where a header has to end. -/
theorem length_header (carries : Carries protocol f) (source destination : IpAddress)
    (sourcePort destinationPort : UInt16) :
    (header protocol source destination sourcePort destinationPort).length ≤ 102 := by
  have hprotocol : protocol.length = 4 := by
    cases carries <;> rfl
  have hsource := source.length_print
  have hdestination := destination.length_print
  have hport (p : UInt16) : (toString p.toNat).toList.length ≤ 5 := by
    have hlt := p.toNat_lt
    rw [toList_toString]
    exact (Nat.length_toDigits_le_iff (by decide) (by decide)).mpr (by omega)
  have hfrom := hport sourcePort
  have hto := hport destinationPort
  have hword : "PROXY ".toList.length = 6 := rfl
  rw [header_eq]
  simp only [List.length_append, List.length_singleton]
  omega

/-- **A header as it is written names its sender**, whatever follows it. -/
theorem wraps_header (carries : Carries protocol f) (from_ : familyOf source = f)
    (to_ : familyOf destination = f) (sourcePort destinationPort : UInt16) {returns : Nat}
    (few : returns ≤ 1) (payload : Bytes) :
    Wraps (Utf8.encodeChars (header protocol source destination sourcePort destinationPort ++
      List.replicate returns '\r') ++ 0x0A :: payload)
      ⟨some (.make source sourcePort), payload⟩ := by
  have hmem : ∀ c ∈ header protocol source destination sourcePort destinationPort ++
      List.replicate returns '\r', c ∈ '\r' :: lineSigns := by
    intro c hc
    rcases List.mem_append.mp hc with hc | hc
    · exact List.mem_cons_of_mem _ (mem_header carries hc)
    · rw [List.eq_of_mem_replicate hc]
      exact List.mem_cons_self
  have hsigns : ∀ c ∈ '\r' :: lineSigns, c.toNat < 0x80 ∧ UInt8.ofNat c.toNat ≠ 0x0A := by
    -- decided along the list, not over all characters
    have hall : ('\r' :: lineSigns).all (fun c =>
        decide (c.toNat < 0x80 ∧ UInt8.ofNat c.toNat ≠ 0x0A)) = true := by decide +kernel
    intro c hc
    exact of_decide_eq_true (List.all_eq_true.mp hall c hc)
  have hoctets := Utf8.encodeChars_of_ascii fun c hc => (hsigns c (hmem c hc)).1
  refine .headed (names_header carries from_ to_) ?_ rfl ?_ ?_
  · intro hlast
    exact absurd (mem_header carries (List.mem_of_getLast? hlast)) (by decide +kernel)
  · rw [hoctets]
    intro hnewline
    obtain ⟨c, hc, hvalue⟩ := List.mem_map.mp hnewline
    exact (hsigns c (hmem c hc)).2 hvalue
  · have hlength := length_header carries source destination sourcePort destinationPort
    rw [hoctets, List.length_map, List.length_append, List.length_replicate]
    exact Nat.lt_of_le_of_lt (Nat.add_le_add hlength few) (by decide)

end Written

/-! ## 5. The whole -/

open Radius in
/-- A packet does not start like a header: no code has the number of the first letter. -/
theorem not_signature_of_read {ctx : ReadingContext} {authenticator : Option Block}
    {datagram : Bytes} {p : Packet} (h : ctx.read authenticator datagram = .ok p) :
    ¬ signature <+: datagram := by
  obtain ⟨ts, hgenuine, -, -⟩ := genuine_of_read h
  intro hpresent
  obtain ⟨rest, rfl⟩ := hpresent
  have hnumber : p.code.number = 0x50 := (Option.some.inj hgenuine.known).symm
  cases hcode : p.code <;> rw [hcode] at hnumber <;> exact absurd hnumber (by decide)

/-- **Headers are unwrapped exactly.** A header as it is written is taken off and nothing else is;
all that is unwrapped is said by `Wraps`; and no datagram that is a packet is taken for one with a
header. -/
theorem unwrap_exact :
    (∀ (protocol : List Char) (f : Family) (source destination : IpAddress)
        (sourcePort destinationPort : UInt16) (ending : String) (payload : Bytes),
      Carries protocol f → familyOf source = f → familyOf destination = f →
      ending ∈ ["\n", "\r\n"] →
      unwrap (Utf8.encodeChars (header protocol source destination sourcePort destinationPort) ++
        Utf8.encode ending ++ payload) = .ok ⟨some (.make source sourcePort), payload⟩) ∧
    (∀ datagram r, unwrap datagram = .ok r ↔ Wraps datagram r) ∧
    ∀ (ctx : Radius.ReadingContext) authenticator datagram p,
      ctx.read authenticator datagram = .ok p →
      isPresent datagram = false ∧ unwrap datagram = .ok ⟨none, datagram⟩ := by
  refine ⟨fun protocol f source destination sourcePort destinationPort ending payload carries from_
    to_ ends => ?_, fun datagram r => unwrap_ok_iff, fun ctx authenticator datagram p read => ?_⟩
  · obtain ⟨returns, few, hending⟩ : ∃ returns, returns ≤ 1 ∧
        Utf8.encode ending = Utf8.encodeChars (List.replicate returns '\r') ++ [0x0A] := by
      rcases List.mem_cons.mp ends with rfl | ends
      · exact ⟨0, by decide, rfl⟩
      · obtain rfl := List.mem_singleton.mp ends
        exact ⟨1, by decide, rfl⟩
    have hwraps := unwrap_ok_iff.mpr
      (wraps_header carries from_ to_ sourcePort destinationPort few payload)
    have happend (xs ys : List Char) :
        Utf8.encodeChars (xs ++ ys) = Utf8.encodeChars xs ++ Utf8.encodeChars ys :=
      List.flatMap_append
    rw [happend] at hwraps
    rw [hending]
    simpa using hwraps
  · have plain := not_signature_of_read read
    exact ⟨Bool.eq_false_iff.mpr fun h => plain (isPresent_iff.mp h), unwrap_bare plain⟩

/-- The header of a device behind a relay, before a payload with a newline of its own. -/
theorem unwrap_relayed :
    unwrap (Utf8.encode "PROXY TCP4 192.168.1.10 10.0.0.1 5000 1812\r\n" ++ [1, 0x0A, 3]) =
      .ok ⟨some (.v4 (.ofOctets [192, 168, 1, 10]) 5000), [1, 0x0A, 3]⟩ := by
  have hwritten := unwrap_exact.1 "TCP4".toList .v4 (.v4 (.ofOctets [192, 168, 1, 10]))
    (.v4 (.ofOctets [10, 0, 0, 1])) 5000 1812 "\r\n" [1, 0x0A, 3] .tcp4 rfl rfl (by decide)
  exact hwritten

end ProxyHeader

end AccessGate
