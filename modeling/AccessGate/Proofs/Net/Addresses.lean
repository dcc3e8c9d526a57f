import Mathlib.Data.List.TakeWhile
import AccessGate.Proofs.Net.Reading

/-!
# Texts of addresses and of networks

A field of a line and an entry of a configuration are addresses only as a whole. This file says what
such texts are made of, and which addresses a network holds:

* `Took`: a reader takes a front of its text, and every character that it takes is of its kind
  (`took_ipv4`, `took_ipv6`);
* `IpAddress.parseChars?_print`: so no text of one version is taken for one of the other, and an
  address is read as it is written; `IpAddress.length_print` bounds the text;
* `Network.parse?_of_address`: a text of an address is one of a network, of that address alone;
* `Network.contains_iff`: a network holds what starts with its leading bits.
-/

namespace AccessGate

namespace Reader

/-! ## 1. What is taken -/

variable {p q : Char → Prop} {cs rest tail : List Char}

/-- Characters of this kind were taken from the front. -/
def Took (p : Char → Prop) (cs rest : List Char) : Prop :=
  ∃ front, cs = front ++ rest ∧ ∀ c ∈ front, p c

theorem Took.refl (p : Char → Prop) (cs : List Char) : Took p cs cs := ⟨[], rfl, nofun⟩

theorem Took.trans (first : Took p cs rest) (second : Took p rest tail) : Took p cs tail := by
  obtain ⟨front, rfl, hfront⟩ := first
  obtain ⟨middle, rfl, hmiddle⟩ := second
  refine ⟨front ++ middle, (List.append_assoc ..).symm, fun c hc => ?_⟩
  exact (List.mem_append.mp hc).elim (hfront c) (hmiddle c)

theorem Took.mono (h : Took p cs rest) (sub : ∀ c, p c → q c) : Took q cs rest := by
  obtain ⟨front, hcs, hfront⟩ := h
  exact ⟨front, hcs, fun c hc => sub c (hfront c hc)⟩

/-- Of a text that is read to its end every character was taken. -/
theorem Took.all (h : Took p cs []) : ∀ c ∈ cs, p c := by
  obtain ⟨front, rfl, hfront⟩ := h
  rwa [List.append_nil]

theorem whole_eq_some_iff {α : Type} {r : Reader α} {a : α} :
    whole r cs = some a ↔ r cs = some (a, []) := by
  unfold whole
  split
  · rename_i b hread
    rw [hread]
    simp
  · rename_i hother
    exact ⟨nofun, fun h => absurd h (hother a)⟩

theorem took_char {c : Char} {u : Unit} (of : p c) (h : char c cs = some (u, rest)) :
    Took p cs rest := by
  unfold char at h
  split at h
  · split at h
    · rename_i d tail hd
      obtain ⟨-, rfl⟩ := Prod.mk.inj (Option.some.inj h)
      exact ⟨[d], rfl, fun e he => by rw [List.mem_singleton.mp he, hd]; exact of⟩
    · cases h
  · cases h

/-- A number takes digits. -/
theorem took_number {digit? : Char → Option Nat} {base : Nat} {out : Nat × Nat}
    (of : ∀ c, (digit? c).isSome = true → p c) (h : number digit? base cs = some (out, rest)) :
    Took p cs rest := by
  rw [rest_of_number h]
  refine ⟨_, List.takeWhile_append_dropWhile.symm, fun c hc => of c ?_⟩
  exact List.mem_takeWhile_imp (p := fun c => (digit? c).isSome) hc

/-- The characters of the dotted form. -/
def Dotted (c : Char) : Prop := (Numeral.digit? c).isSome = true ∨ c = '.'

instance : DecidablePred Dotted := fun _ => inferInstanceAs (Decidable (_ ∨ _))

theorem took_octet {n : Nat} (h : octet cs = some (n, rest)) : Took Dotted cs rest := by
  unfold octet at h
  obtain ⟨⟨⟨m, size⟩, tail⟩, hnumber, hrest⟩ := Option.bind_eq_some_iff.mp h
  simp only at hrest
  split at hrest
  · obtain ⟨-, rfl⟩ := Prod.mk.inj (Option.some.inj hrest)
    exact took_number (fun c => Or.inl) hnumber
  · cases hrest

theorem took_ipv4 {a : Ipv4} (h : ipv4 cs = some (a, rest)) : Took Dotted cs rest := by
  unfold ipv4 at h
  simp only [Option.bind_eq_bind, Option.bind_eq_some_iff, Prod.exists] at h
  obtain ⟨o₁, cs₁, h₁, u₁, cs₂, h₂, o₂, cs₃, h₃, u₂, cs₄, h₄, o₃, cs₅, h₅, u₃, cs₆, h₆, o₄, cs₇, h₇,
    hend⟩ := h
  obtain ⟨-, rfl⟩ := Prod.mk.inj (Option.some.inj hend)
  have hdot {cs tail : List Char} {u : Unit} (h : char '.' cs = some (u, tail)) :
      Took Dotted cs tail :=
    took_char (Or.inr rfl) h
  exact (took_octet h₁).trans <| (hdot h₂).trans <| (took_octet h₃).trans <| (hdot h₄).trans <|
    (took_octet h₅).trans <| (hdot h₆).trans (took_octet h₇)

/-- The characters of addresses. -/
def Sign (c : Char) : Prop := (Hex.value? c).isSome = true ∨ c = '.' ∨ c = ':'

instance : DecidablePred Sign := fun _ => inferInstanceAs (Decidable (_ ∨ _))

theorem Dotted.sign {c : Char} (h : Dotted c) : Sign c := by
  rcases h with hdigit | hdot
  · refine Or.inl ?_
    cases hvalue : Hex.value? c with
    | some _ => rfl
    | none =>
      rw [digit?_of_value? hvalue] at hdigit
      exact hdigit
  · exact Or.inr (Or.inl hdot)

theorem took_group {n : Nat} (h : group cs = some (n, rest)) : Took Sign cs rest := by
  unfold group at h
  obtain ⟨⟨⟨m, size⟩, tail⟩, hnumber, hrest⟩ := Option.bind_eq_some_iff.mp h
  simp only at hrest
  split at hrest
  · obtain ⟨-, rfl⟩ := Prod.mk.inj (Option.some.inj hrest)
    exact took_number (fun c => Or.inl) hnumber
  · cases hrest

theorem took_separated {first : Bool} (h : separated first cs = some rest) : Took Sign cs rest := by
  unfold separated at h
  split at h
  · rw [Option.some.inj h]
    exact .refl _ _
  · obtain ⟨⟨u, tail⟩, hchar, rfl⟩ := Option.map_eq_some_iff.mp h
    exact took_char (Or.inr (Or.inr rfl)) hchar

theorem took_piece {α : Type} {r : Reader α} {a : α} {first : Bool}
    (took : ∀ cs, r cs = some (a, rest) → Took Sign cs rest)
    (h : (separated first cs).bind r = some (a, rest)) : Took Sign cs rest := by
  obtain ⟨cs', hseparated, hread⟩ := Option.bind_eq_some_iff.mp h
  exact (took_separated hseparated).trans (took cs' hread)

theorem took_groups {limit : Nat} {first : Bool} {out : List Nat × Bool}
    (h : groups limit first cs = (out, rest)) : Took Sign cs rest := by
  induction limit generalizing first cs out with
  | zero =>
    obtain ⟨-, rfl⟩ := Prod.mk.inj h
    exact .refl _ _
  | succ limit ih =>
    unfold groups at h
    simp only at h
    split at h
    · -- a dotted form is the last piece
      rename_i a tail hdotted
      obtain ⟨-, rfl⟩ := Prod.mk.inj h
      split at hdotted
      · cases hdotted
      · exact took_piece (fun cs h => (took_ipv4 h).mono fun c => Dotted.sign) hdotted
    · split at h
      · obtain ⟨-, rfl⟩ := Prod.mk.inj h
        exact .refl _ _
      · rename_i g tail hgroup
        obtain ⟨-, rfl⟩ := Prod.mk.inj h
        exact (took_piece (fun cs h => took_group h) hgroup).trans (ih rfl)

theorem took_ipv6 {a : Ipv6} (h : ipv6 cs = some (a, rest)) : Took Sign cs rest := by
  have hcolon {cs tail : List Char} {u : Unit} (h : char ':' cs = some (u, tail)) :
      Took Sign cs tail :=
    took_char (Or.inr (Or.inr rfl)) h
  unfold ipv6 at h
  simp only at h
  split at h
  · obtain ⟨-, rfl⟩ := Prod.mk.inj (Option.some.inj h)
    exact took_groups rfl
  · split at h
    · cases h
    · simp only [Option.bind_eq_bind, Option.bind_eq_some_iff, Prod.exists] at h
      obtain ⟨u, cs₁, h₁, u', cs₂, h₂, hend⟩ := h
      obtain ⟨-, rfl⟩ := Prod.mk.inj (Option.some.inj hend)
      exact (took_groups rfl).trans <| (hcolon h₁).trans <| (hcolon h₂).trans (took_groups rfl)

end Reader

open Reader

/-! ## 2. Addresses -/

theorem Ipv4.parseChars?_eq_some_iff {cs : List Char} {a : Ipv4} :
    parseChars? cs = some a ↔ ipv4 cs = some (a, []) := whole_eq_some_iff

theorem Ipv6.parseChars?_eq_some_iff {cs : List Char} {a : Ipv6} :
    parseChars? cs = some a ↔ ipv6 cs = some (a, []) := whole_eq_some_iff

theorem Ipv4.length_print (a : Ipv4) : a.print.toList.length ≤ 15 := by
  have hoctet (o : UInt8) : (Nat.toDigits 10 o.toNat).length ≤ 3 := by
    have hlt := o.toNat_lt
    exact (Nat.length_toDigits_le_iff (by decide) (by decide)).mpr (by omega)
  obtain ⟨o₁, o₂, o₃, o₄, hoctets⟩ : ∃ o₁ o₂ o₃ o₄, a.octets = [o₁, o₂, o₃, o₄] :=
    ⟨_, _, _, _, rfl⟩
  have h₁ := hoctet o₁
  have h₂ := hoctet o₂
  have h₃ := hoctet o₃
  have h₄ := hoctet o₄
  unfold Ipv4.print
  rw [hoctets]
  simp [String.intercalate_cons_cons]
  omega

namespace Ipv6

theorem length_groupChars (first : Bool) {gs : List Nat} (small : ∀ g ∈ gs, g < 65536) :
    (groupChars first gs).length ≤ 5 * gs.length := by
  induction gs generalizing first with
  | nil => exact Nat.le_refl 0
  | cons g gs ih =>
    have hgroup : (Hex.ofNat g).length ≤ 4 :=
      (Nat.length_toDigits_le_iff (by decide) (by decide)).mpr (small g List.mem_cons_self)
    have hrest := ih false fun g hg => small g (List.mem_cons_of_mem _ hg)
    cases first <;> simp [groupChars] <;> omega

/-- The first group has no colon before it. -/
theorem length_joined {gs : List Nat} (small : ∀ g ∈ gs, g < 65536) :
    (joined gs).toList.length ≤ 5 * gs.length - 1 := by
  rw [toList_joined]
  cases gs with
  | nil => exact Nat.le_refl 0
  | cons g gs =>
    have hgroup : (Hex.ofNat g).length ≤ 4 :=
      (Nat.length_toDigits_le_iff (by decide) (by decide)).mpr (small g List.mem_cons_self)
    have hrest := length_groupChars false fun g hg => small g (List.mem_cons_of_mem _ hg)
    simp [groupChars]
    omega

theorem length_print (a : Ipv6) : a.print.toList.length ≤ 39 := by
  cases hmapped : a.mapped? with
  | some inner =>
    have hinner := inner.length_print
    rw [print_of_mapped hmapped]
    simp
    omega
  | none =>
    have hsmall := a.group_lt
    obtain hprint | ⟨head, tail, len, hprint, hgroups, hlen⟩ := print_cases hmapped
    · have hjoined := length_joined hsmall
      rw [hprint]
      rw [a.length_groups] at hjoined
      exact hjoined
    · have hsize := a.length_groups
      rw [hgroups] at hsize hsmall
      have hhead : (joined head).toList.length ≤ 5 * head.length - 1 := length_joined fun g hg =>
        hsmall g (List.mem_append_left _ (List.mem_append_left _ hg))
      have htail : (joined tail).toList.length ≤ 5 * tail.length - 1 := length_joined fun g hg =>
        hsmall g (List.mem_append_right _ hg)
      rw [hprint]
      simp at hsize ⊢
      omega

/-- A text of version 6 has a colon. -/
theorem colon_mem_print (a : Ipv6) : ':' ∈ a.print.toList := by
  cases hmapped : a.mapped? with
  | some inner =>
    rw [print_of_mapped hmapped, String.toList_append]
    exact List.mem_append_left _ (by decide)
  | none =>
    obtain hprint | ⟨head, tail, len, hprint, -, -⟩ := print_cases hmapped
    · have hsize := a.length_groups
      rw [hprint, toList_joined]
      match a.groups, hsize with
      | g :: g' :: gs, _ => simp [groupChars]
    · rw [hprint]
      simp

end Ipv6

namespace IpAddress

/-- An address of version 4 is tried first. -/
theorem parseChars?_cases {cs : List Char} {a : IpAddress} (h : parseChars? cs = some a) :
    (∃ b, a = .v4 b ∧ Ipv4.parseChars? cs = some b) ∨
      ∃ b, a = .v6 b ∧ Ipv4.parseChars? cs = none ∧ Ipv6.parseChars? cs = some b := by
  unfold parseChars? at h
  cases hfour : Ipv4.parseChars? cs with
  | some b =>
    rw [hfour] at h
    exact Or.inl ⟨b, (Option.some.inj h).symm, rfl⟩
  | none =>
    rw [hfour] at h
    obtain ⟨b, hsix, rfl⟩ := Option.map_eq_some_iff.mp h
    exact Or.inr ⟨b, rfl, rfl, hsix⟩

/-- **An address is read as it is written.** -/
theorem parseChars?_print (a : IpAddress) : parseChars? a.print.toList = some a := by
  unfold parseChars?
  cases a with
  | v4 a =>
    have hread : Ipv4.parseChars? a.print.toList = some a := by
      have hprint : ipv4 (a.print.toList ++ []) = some (a, []) := ipv4_print a nofun
      rw [List.append_nil] at hprint
      exact Ipv4.parseChars?_eq_some_iff.mpr hprint
    rw [print, hread]
    rfl
  | v6 a =>
    have hread : Ipv6.parseChars? a.print.toList = some a := by
      have hprint : ipv6 (a.print.toList ++ []) = some (a, []) := ipv6_print a nofun
      rw [List.append_nil] at hprint
      exact Ipv6.parseChars?_eq_some_iff.mpr hprint
    have hnone : Ipv4.parseChars? a.print.toList = none := by
      rw [Option.eq_none_iff_forall_ne_some]
      intro b hb
      have hdotted := (took_ipv4 (Ipv4.parseChars?_eq_some_iff.mp hb)).all ':' a.colon_mem_print
      exact absurd hdotted (by decide)
    rw [print, hnone, hread]
    rfl

theorem length_print (a : IpAddress) : a.print.toList.length ≤ 39 := by
  cases a with
  | v4 a => exact a.length_print.trans (by decide)
  | v6 a => exact a.length_print

/-- A text of an address has no other characters. -/
theorem sign_of_parseChars? {cs : List Char} {a : IpAddress} (h : parseChars? cs = some a) :
    ∀ c ∈ cs, Sign c := by
  rcases parseChars?_cases h with ⟨b, -, hread⟩ | ⟨b, -, -, hread⟩
  · exact ((took_ipv4 (Ipv4.parseChars?_eq_some_iff.mp hread)).mono fun _ => Dotted.sign).all
  · exact (took_ipv6 (Ipv6.parseChars?_eq_some_iff.mp hread)).all

end IpAddress

/-! ## 3. Networks -/

namespace Network

/-- The network of an address alone. -/
def single : IpAddress → Network
  | .v4 a => ⟨.v4 a, 32⟩
  | .v6 a => ⟨.v6 a, 128⟩

/-- **A text of an address is one of the network of that address alone.** -/
theorem parse?_of_address {text : String} {a : IpAddress} (h : IpAddress.parse? text = some a) :
    parse? text = some (single a) := by
  have hplain : ∀ c ∈ text.toList, decide (c ≠ '/') = true := by
    intro c hc
    have hsign := IpAddress.sign_of_parseChars? h c hc
    refine decide_eq_true fun hslash => ?_
    rw [hslash] at hsign
    exact absurd hsign (by decide)
  unfold parse?
  simp only [List.takeWhile_eq_self_iff.mpr hplain, List.dropWhile_eq_nil_iff.mpr hplain]
  rcases IpAddress.parseChars?_cases h with ⟨b, rfl, hread⟩ | ⟨b, rfl, hother, hread⟩
  · simp [parse4?, hread, single]
  · simp [parse4?, parse6?, hother, hread, single]

/-- The leading bits are the same one by one. -/
theorem sameLead_iff {width len : Nat} {a b : BitVec width} :
    sameLead len a b = true ↔ ∀ i < len, a.getMsbD i = b.getMsbD i := by
  unfold sameLead
  rw [beq_iff_eq]
  constructor
  · intro h i hi
    by_cases hwidth : i < width
    · have hplace : width - len + (width - 1 - i - (width - len)) = width - 1 - i := by omega
      have hbit := congrArg (Nat.testBit · (width - 1 - i - (width - len))) h
      simp only [Nat.testBit_shiftRight, hplace] at hbit
      simpa [BitVec.getMsbD, BitVec.getLsbD, hwidth] using hbit
    · simp [BitVec.getMsbD, hwidth]
  · intro h
    refine Nat.eq_of_testBit_eq fun j => ?_
    rw [Nat.testBit_shiftRight, Nat.testBit_shiftRight]
    by_cases hj : width - len + j < width
    · have hbit := h (width - 1 - (width - len + j)) (by omega)
      have hback : width - 1 - (width - 1 - (width - len + j)) = width - len + j := by omega
      have hin : width - 1 - (width - len + j) < width := by omega
      simpa [BitVec.getMsbD, BitVec.getLsbD, hback, hin] using hbit
    · have hout {c : BitVec width} : c.toNat.testBit (width - len + j) = false :=
        Nat.testBit_lt_two_pow
          (Nat.lt_of_lt_of_le c.isLt (Nat.pow_le_pow_right (by decide) (by omega)))
      rw [hout, hout]

/-- The address is of the network's version and has its leading bits; the others do not matter. -/
inductive Holds : Network → IpAddress → Prop where
  | v4 {len : Nat} {a b : Ipv4} (lead : ∀ i < len, a.bits.getMsbD i = b.bits.getMsbD i) :
      Holds ⟨.v4 a, len⟩ (.v4 b)
  | v6 {len : Nat} {a b : Ipv6} (lead : ∀ i < len, a.bits.getMsbD i = b.bits.getMsbD i) :
      Holds ⟨.v6 a, len⟩ (.v6 b)

theorem contains_iff {net : Network} {address : IpAddress} :
    net.contains address = true ↔ Holds net address := by
  obtain ⟨a, len⟩ := net
  constructor
  · intro h
    cases a <;> cases address
    · exact .v4 (sameLead_iff.mp h)
    · cases h
    · cases h
    · exact .v6 (sameLead_iff.mp h)
  · intro h
    cases h with
    | v4 lead => exact sameLead_iff.mpr lead
    | v6 lead => exact sameLead_iff.mpr lead

end Network

end AccessGate
