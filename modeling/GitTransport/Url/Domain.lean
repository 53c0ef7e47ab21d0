/-
Domain names in their ASCII form.

  A name is a list of labels with points between them.  The characters of a name are
  brought to their forms first, as far as the table of forms goes (`letterForm`).  A
  label with characters beyond ASCII is then written in an ASCII form that begins with a
  fixed mark, and a label that has the mark already has to be the form of such a label.
  A name with a character that would end or split the host, or with a blank or a control
  character, is refused.
-/

import GitTransport.Text.Bootstring
import GitTransport.Url.Letters
import GitTransport.Url.Percent

namespace GitTransport.Url

/-- The characters of ASCII that no domain name contains. -/
def forbiddenInDomain (c : Char) : Bool :=
  c.toNat ≤ 0x20 || c.toNat = 0x7f ||
  ['%', '#', '/', ':', '<', '>', '?', '@', '[', '\\', ']', '^', '|'].contains c

/-- What the ASCII form of a label begins with. -/
def encodedMark : List Char := ['x', 'n', '-', '-']

/-- Whether a label can stand in a domain name, its characters having their forms. -/
def isLabel (label : List Char) : Bool :=
  !label.any isRefused && !(label.head?.any isMark)

/-- Whether the characters of a label have their forms and none is left out. -/
def hasForms (label : List Char) : Bool :=
  label.all fun c => letterForm c = c && !isIgnored c

/-- The ASCII form of a label. -/
def encodeLabel? (label : List Char) : Option (List Char) :=
  if encodedMark.isPrefixOf label then
    match Text.Bootstring.decode? (label.drop encodedMark.length) with
    | some decoded =>
      if hasForms decoded ∧ isLabel decoded ∧ !decoded.all Text.Bootstring.isBasic then some label
      else none
    | none => none
  else if label.all Text.Bootstring.isBasic then some label
  else if isLabel label then some (encodedMark ++ Text.Bootstring.encode label)
  else none

/-- The ASCII form of a domain name.  A name in ASCII without an encoded label has the form
    of the standard.  For all other names the tables here are smaller than those of the
    standard: where a character has a form that is not in `letterRows`, or is refused or
    left out by the standard alone, or where a letter is put together with the mark behind
    it, an HTTP client gives the host another ASCII form than this one or refuses it. -/
def domainName? (name : List Char) : Option (List Char) :=
  let formed := (name.filter (!isIgnored ·)).map letterForm
  match (Text.splitAt (· = '.') formed).mapM encodeLabel? with
  | some labels =>
    let encoded := List.intercalate ['.'] labels
    if encoded.any forbiddenInDomain then none else some encoded
  | none => none

end GitTransport.Url
