/-
Characters that no host contains.

  A host under a well-known scheme is decoded and brought to the form of a domain name.
  Decoding keeps every character of ASCII that belongs to no escape
  (`mem_percentDecodeText`), and so does the ASCII form of a name
  (`Bootstring.mem_encode`, `mem_domainName?`).  So what no domain name contains cannot
  stand in a host: a colon is there only inside of brackets
  (`getLast?_of_specialHost`).
-/

import GitTransport.Url.Host
import GitTransport.Proofs.Json.Items
import GitTransport.Proofs.Text.Pieces
import GitTransport.Proofs.Url.Percent

namespace GitTransport

namespace Text

/-! ## Decoding -/

/-- The byte after the first one of a character is not ASCII. -/
theorem low_of_lead {b : UInt8} {p : PartialChar} (h : lead b = .first p) : 0x80 ≤ p.low := by
  unfold lead at h
  dsimp only at h
  split at h
  · cases h
  split at h
  · cases h
  split at h
  · obtain rfl := Lead.first.inj h
    exact Nat.le_refl _
  split at h
  · obtain rfl := Lead.first.inj h
    dsimp only
    split <;> omega
  split at h
  · obtain rfl := Lead.first.inj h
    dsimp only
    split <;> omega
  · cases h

/-- A byte of ASCII is read as its character wherever it stands: it belongs to no longer
    one. -/
theorem mem_decodeUtf8From {b : UInt8} (hb : b.toNat < 0x80) {pending : Option PartialChar}
    (hpending : ∀ p, pending = some p → 0x80 ≤ p.low) {bytes : List UInt8} (h : b ∈ bytes) :
    Char.ofNat b.toNat ∈ decodeUtf8From pending bytes := by
  induction bytes generalizing pending with
  | nil => cases h
  | cons x rest ih =>
    -- what is read when a character begins with this byte
    have hfresh : Char.ofNat b.toNat ∈ decodeUtf8From none (x :: rest) := by
      rcases List.mem_cons.1 h with rfl | h
      · have hlead : lead b = .whole (Char.ofNat b.toNat) := by
          rw [lead, if_pos hb]
        simp only [decodeUtf8From, hlead]
        exact List.mem_cons_self
      · cases hlead : lead x with
        | whole c =>
          simp only [decodeUtf8From, hlead]
          exact List.mem_cons_of_mem _ (ih (by rintro p ⟨⟩) h)
        | stray =>
          simp only [decodeUtf8From, hlead]
          exact List.mem_cons_of_mem _ (ih (by rintro p ⟨⟩) h)
        | first p =>
          rw [decodeUtf8From_first hlead]
          refine ih ?_ h
          rintro _ ⟨⟩
          exact low_of_lead hlead
    cases pending with
    | none => exact hfresh
    | some p =>
      unfold decodeUtf8From
      dsimp only
      split
      · next hrange =>
        have hlow := hpending p rfl
        have hrest : b ∈ rest := by
          rcases List.mem_cons.1 h with rfl | h
          · omega
          · exact h
        split
        · exact List.mem_cons_of_mem _ (ih (by rintro p ⟨⟩) hrest)
        · refine ih ?_ hrest
          rintro _ ⟨⟩
          exact Nat.le_refl _
      · exact List.mem_cons_of_mem _ hfresh

/-! ## ASCII forms -/

namespace Bootstring

theorem output_pass (basic wanted : Nat) (w : Writer) (c : Char) :
    w.output <+: (w.pass basic wanted c).output := by
  unfold Writer.pass
  split
  · exact List.prefix_refl _
  split
  · exact List.prefix_append _ _
  · exact List.prefix_refl _

theorem output_foldl (basic wanted : Nat) (text : List Char) (w : Writer) :
    w.output <+: (text.foldl (Writer.pass basic wanted) w).output := by
  induction text generalizing w with
  | nil => exact List.prefix_refl _
  | cons c text ih => exact (output_pass basic wanted w c).trans (ih _)

/-- Nothing is taken back of what has been written. -/
theorem output_write (text : List Char) (basic : Nat) (numbers : List Nat) (current : Nat)
    (w : Writer) : w.output <+: (write text basic numbers current w).output := by
  induction numbers generalizing current w with
  | nil => exact List.prefix_refl _
  | cons wanted rest ih =>
    unfold write
    refine List.IsPrefix.trans ?_ (ih _ _)
    exact output_foldl basic wanted text
      { w with delta := w.delta + (wanted - current) * (w.written + 1) }

/-- The ASCII form of a text has all characters of ASCII in it. -/
theorem mem_encode {c : Char} {text : List Char} (hc : c ∈ text) (hbasic : isBasic c = true) :
    c ∈ encode text := by
  have hmem : c ∈ text.filter isBasic := List.mem_filter.2 ⟨hc, hbasic⟩
  unfold encode
  dsimp only
  apply (output_write text _ _ _ _).subset
  rw [if_neg (fun hempty => by rw [List.isEmpty_iff.1 hempty] at hmem; cases hmem)]
  exact List.mem_append_left _ hmem

end Bootstring

end Text

namespace Url

open Text

/-! ## Escapes -/

/-- A byte that belongs to no escape is kept. -/
theorem mem_percentDecodeBytes {b : UInt8} (hhex : hexValue? b = none) {bytes : List UInt8}
    (hpercent : b ≠ 0x25) (h : b ∈ bytes) : b ∈ percentDecodeBytes bytes := by
  induction bytes using percentDecodeBytes.induct with
  | case1 => cases h
  | case2 x y rest high low hy hx ih =>
    -- neither of the digits is the byte
    rw [percentDecodeBytes_escape hx hy]
    have hrest : b ∈ rest := by
      rcases List.mem_cons.1 h with rfl | h
      · exact absurd rfl hpercent
      rcases List.mem_cons.1 h with rfl | h
      · rw [hhex] at hx
        cases hx
      rcases List.mem_cons.1 h with rfl | h
      · rw [hhex] at hy
        cases hy
      · exact h
    exact List.mem_cons_of_mem _ (ih hrest)
  | case3 x y rest hnot ih =>
    -- a percent sign without two digits is kept
    have hkept : percentDecodeBytes (0x25 :: x :: y :: rest) =
        0x25 :: percentDecodeBytes (x :: y :: rest) := by
      cases hx : hexValue? x with
      | none => exact percentDecodeBytes_percent_of_first hx _
      | some high =>
        cases hy : hexValue? y with
        | none => exact percentDecodeBytes_percent_of_second x hy rest
        | some low => exact (hnot high low hx hy).elim
    rw [hkept]
    rcases List.mem_cons.1 h with rfl | h
    · exact List.mem_cons_self
    · exact List.mem_cons_of_mem _ (ih h)
  | case4 short hshort =>
    match short, hshort with
    | [], _ => rwa [percentDecodeBytes_singleton]
    | [x], _ => simpa [percentDecodeBytes] using h
    | x :: y :: rest, hshort => exact (hshort x y rest rfl).elim
  | case5 c rest hc ih =>
    rw [percentDecodeBytes_cons_ne hc]
    rcases List.mem_cons.1 h with rfl | h
    · exact List.mem_cons_self
    · exact List.mem_cons_of_mem _ (ih h)

/-- A character of ASCII that belongs to no escape is kept. -/
theorem mem_percentDecodeText {c : Char} (hlt : c.toNat < 0x80) (hpercent : c ≠ '%')
    (hhex : isHexDigit c = false) {text : List Char} (h : c ∈ text) :
    c ∈ percentDecodeText text := by
  have hbyte : (UInt8.ofNat c.toNat).toNat = c.toNat := toNat_ofNat_lt (by omega)
  have hvalue : hexValue? (UInt8.ofNat c.toNat) = none := by
    rw [hexValue?, hbyte, Char.ofNat_toNat]
    simpa [isHexDigit] using hhex
  have hmem : UInt8.ofNat c.toNat ∈ utf8 text := by
    refine List.mem_flatMap.2 ⟨c, h, ?_⟩
    rw [utf8Char_of_lt hlt]
    exact List.mem_cons_self
  have hkept := mem_percentDecodeBytes hvalue (ofNat_toNat_ne_percent hlt hpercent) hmem
  have hread : Char.ofNat (UInt8.ofNat c.toNat).toNat ∈ percentDecodeText text :=
    mem_decodeUtf8From (by omega) (by rintro p ⟨⟩) hkept
  rwa [hbyte, Char.ofNat_toNat] at hread

/-! ## Names -/

/-- What no domain name contains is ASCII, has its form, is not left out and does not
    separate labels. -/
theorem spec_of_forbidden {c : Char} (h : forbiddenInDomain c = true) :
    c.toNat < 0x80 ∧ letterForm c = c ∧ isIgnored c = false ∧ c ≠ '.' := by
  have hlt : c.toNat < 0x80 := by
    simp only [forbiddenInDomain, Bool.or_eq_true, decide_eq_true_eq, List.contains_iff_mem,
      List.mem_cons, List.not_mem_nil, or_false] at h
    rcases h with (h | h) | h
    · omega
    · omega
    · rcases h with rfl | rfl | rfl | rfl | rfl | rfl | rfl | rfl | rfl | rfl | rfl | rfl | rfl
      all_goals decide
  have hall : forbiddenInDomain c = true → letterForm c = c ∧ isIgnored c = false ∧ c ≠ '.' :=
    of_toNat_lt c hlt (by decide)
  exact ⟨hlt, hall h⟩

/-- The ASCII form of a label has all its characters of ASCII in it. -/
theorem mem_encodeLabel? {c : Char} (hlt : c.toNat < 0x80) {label encoded : List Char}
    (hc : c ∈ label) (h : encodeLabel? label = some encoded) : c ∈ encoded := by
  -- a label that is ASCII stays as it is, and every other one is encoded behind the mark
  unfold encodeLabel? at h
  split at h
  · split at h
    · split at h
      · cases h
        exact hc
      · cases h
    · cases h
  split at h
  · cases h
    exact hc
  split at h
  · cases h
    exact List.mem_append_right _ (Bootstring.mem_encode hc (decide_eq_true hlt))
  · cases h

theorem mem_intercalate (sep : List Char) {c : Char} {label : List Char}
    {labels : List (List Char)} (hlabel : label ∈ labels) (hc : c ∈ label) :
    c ∈ List.intercalate sep labels := by
  induction labels with
  | nil => cases hlabel
  | cons first rest ih =>
    cases rest with
    | nil =>
      rw [List.intercalate_singleton]
      rwa [← List.mem_singleton.1 hlabel]
    | cons second rest =>
      rw [List.intercalate_cons_cons, List.mem_append, List.mem_append]
      rcases List.mem_cons.1 hlabel with rfl | hlabel
      · exact .inl (.inl hc)
      · exact .inr (ih hlabel)

/-- What can be written as a domain name has none of the characters that no domain name
    contains. -/
theorem not_forbidden_of_domainName? {name encoded : List Char}
    (h : domainName? name = some encoded) : ∀ c ∈ name, forbiddenInDomain c = false := by
  intro c hc
  refine Bool.eq_false_iff.2 fun hforbidden => ?_
  obtain ⟨hlt, hform, hkept, hpoint⟩ := spec_of_forbidden hforbidden
  -- the character is in one of the labels, and so in the form of this label
  have hformed : c ∈ (name.filter (!isIgnored ·)).map letterForm :=
    List.mem_map.2 ⟨c, List.mem_filter.2 ⟨hc, by rw [hkept]; rfl⟩, hform⟩
  have hlabel : ∃ piece ∈ splitAt (· = '.') ((name.filter (!isIgnored ·)).map letterForm),
      c ∈ piece := by
    apply exists_mem_splitAt _ hformed
    exact decide_eq_false hpoint
  obtain ⟨piece, hpiece, hmem⟩ := hlabel
  unfold domainName? at h
  dsimp only at h
  split at h
  · next labels hlabels =>
    obtain ⟨label, hlabel, hencoded⟩ :=
      Json.exists_of_forall₂ (Json.mapM_eq_some_iff.1 hlabels) hpiece
    have hc := mem_intercalate ['.'] hlabel (mem_encodeLabel? hlt hmem hencoded)
    rw [if_pos (List.any_eq_true.2 ⟨c, hc, hforbidden⟩)] at h
    cases h
  · cases h

/-! ## Hosts -/

/-- A colon stands in a host only inside of brackets. -/
theorem getLast?_of_specialHost {text : List Char} {host : Host} (h : specialHost text = .ok host)
    (hcolon : ':' ∈ text) : text.getLast? = some ']' := by
  unfold specialHost at h
  split at h
  · next bracketed hbracketed =>
    -- what begins with a bracket is refused unless it ends with one
    subst h
    unfold bracketed? at hbracketed
    split at hbracketed
    · next rest =>
      split at hbracketed
      · next hlast =>
        rw [List.getLast?_cons, hlast]
        rfl
      · cases hbracketed
    · cases hbracketed
  · split at h
    · cases h
    · next name hname =>
      -- the colon would be in the name that is decoded, which cannot be written then
      have hread := mem_percentDecodeText (by decide) (by decide) (by decide) hcolon
      cases not_forbidden_of_domainName? hname ':' hread

end Url

end GitTransport
