/-
The root of the service.

  The host of the settings is pasted into a text with the scheme, the port and the path of
  the service, and the text is read as an address.  What is read behind the scheme is the
  host without line ends and without slashes in front, and then the port and the path
  (`readAuthority_of_baseUrl`).

  If no character of the host ends the authority there, the port is the one of the settings
  and the path is the one of the service.  Otherwise both become a part of the path, the
  query or the fragment.  So of the hosts that lead to an address, those lead to the root of
  the service that stay in their place and have no user information
  (`isServiceRoot_iff`).
-/

import GitTransport.Proofs.Http.Origin
import GitTransport.Proofs.Url.Query
import Mathlib.Data.Bool.AllAny

namespace GitTransport.Settings

open Text Url

/-! ## The text that is read -/

/-- The scheme of a connection. -/
def schemeOf (ssl : Bool) : String := if ssl then "https" else "http"

theorem special_schemeOf (ssl : Bool) : isSpecial (schemeOf ssl) = true := by
  cases ssl <;> decide

theorem not_file_schemeOf (ssl : Bool) : schemeOf ssl ≠ "file" := by
  cases ssl <;> decide

/-- What is read of a host: line ends are left out, and slashes in front. -/
def hostRead (host : String) : List Char :=
  (host.toList.filter (!isLineEnd ·)).dropWhile fun c => c = '/' || c = '\\'

/-- What stands behind the host. -/
def behindHost (port : Nat) : List Char := ':' :: Nat.toDigits 10 port ++ servicePath.toList

/-- A digit is neither dropped nor a mark. -/
theorem spec_of_mem_toDigits {port : Nat} {c : Char} (h : c ∈ Nat.toDigits 10 port) :
    c.isDigit = true ∧ isLineEnd c = false ∧ c ∉ ['/', '\\', '?', '#'] ∧ c ≠ '@' := by
  have hdigit : c.isDigit = true := Nat.isDigit_of_mem_toDigits (by decide) (by decide) h
  have hall : c.isDigit = true → isLineEnd c = false ∧ c ∉ ['/', '\\', '?', '#'] ∧ c ≠ '@' :=
    of_toNat_lt c (toNat_lt_of_isDigit hdigit) (by decide)
  exact ⟨hdigit, hall hdigit⟩

/-- A root is read from the host and from what stands behind it. -/
theorem readAuthority_of_baseUrl {host : String} {port : Nat} {ssl : Bool} {url : Url}
    (h : baseUrl host port ssl = .ok url) :
    readAuthority (schemeOf ssl) (hostRead host ++ behindHost port) = .ok url := by
  unfold baseUrl at h
  split at h
  · cases h
  have hparse : parse (schemeOf ssl ++ "://" ++ host ++ ":" ++ toString port ++ servicePath) =
      .ok url := mapError_eq_ok_iff.1 h
  have htext : (schemeOf ssl ++ "://" ++ host ++ ":" ++ toString port ++ servicePath).toList =
      ((schemeOf ssl).toList ++ "://".toList) ++ (host.toList ++ behindHost port) := by
    simp [String.toList_append, behindHost]
  have hfirst : ∀ c ∈ (schemeOf ssl).toList ++ "://".toList,
      isEdge c = false ∧ isLineEnd c = false := by
    cases ssl <;> exact List.all_iff_forall_prop.1 (by decide)
  -- nothing is dropped behind the path, and line ends stand in the host only
  have hend : dropLastWhile isEdge (host.toList ++ behindHost port) =
      host.toList ++ behindHost port := by
    refine dropLastWhile_eq_self_iff.2 fun c hc => ?_
    have hslash : servicePath.toList.getLast? = some '/' := by decide
    rw [behindHost, List.getLast?_append, List.getLast?_append, hslash] at hc
    cases hc
    decide
  have hkept : (behindHost port).filter (!isLineEnd ·) = behindHost port := by
    refine List.filter_eq_self.2 fun c hc => ?_
    rw [behindHost, List.cons_append, List.mem_cons, List.mem_append] at hc
    rcases hc with rfl | hc | hc
    · decide
    · rw [(spec_of_mem_toDigits hc).2.1]
      rfl
    · have hall : servicePath.toList.all (!isLineEnd ·) = true := by decide
      exact List.all_eq_true.1 hall c hc
  have hread := significant_append (by cases ssl <;> decide) hfirst htext
  rw [hend, List.filter_append, hkept, List.append_assoc] at hread
  rw [parse_eq_readAuthority (special_schemeOf ssl) (not_file_schemeOf ssl)
    (by cases ssl <;> decide) (by cases ssl <;> decide) hread] at hparse
  rw [← hparse]
  congr 1
  -- the slashes in front of the host are those behind the scheme
  have hslashes : isSlash (schemeOf ssl) = fun c => c = '/' || c = '\\' :=
    funext (isSlash_of_special (special_schemeOf ssl))
  have hbehind : (behindHost port).dropWhile (fun c => c = '/' || c = '\\') = behindHost port := rfl
  have hfront (text : List Char) : ('/' :: '/' :: text).dropWhile (fun c => c = '/' || c = '\\') =
      text.dropWhile fun c => c = '/' || c = '\\' := rfl
  show _ = List.dropWhile _ ('/' :: '/' :: (_ ++ behindHost port))
  rw [hslashes, hfront, List.dropWhile_append, hbehind, hostRead]
  split
  · next hempty =>
    rw [List.isEmpty_iff.1 hempty]
    rfl
  · rfl

/-! ## Roots -/

/-- An address of the service at a port: the path is the one of the service, and there is
    nothing in the address that the settings of a root do not have. -/
structure IsServiceRoot (ssl : Bool) (port : Nat) (url : Url) : Prop where
  scheme : url.scheme = schemeOf ssl
  port : url.effectivePort? = some port
  path : url.pathText = servicePath
  userinfo : ∃ authority, url.authority = some authority ∧ authority.username = "" ∧
    authority.password = none
  query : url.query = none
  fragment : url.fragment = none

/-- A host none of whose characters ends the authority, and with no user information: before
    its last at sign, if there is one, stands nothing or a colon. -/
structure StaysInHost (host : String) : Prop where
  marks : ∀ c ∈ hostRead host, c ∉ ['/', '\\', '?', '#']
  userinfo : beforeAt (hostRead host) = [] ∨ beforeAt (hostRead host) = [':']

instance (host : String) : Decidable (StaysInHost host) :=
  decidable_of_iff ((hostRead host).all (· ∉ ['/', '\\', '?', '#']) ∧
      (beforeAt (hostRead host) = [] ∨ beforeAt (hostRead host) = [':']))
    ⟨fun ⟨hmarks, huserinfo⟩ => ⟨List.all_iff_forall_prop.1 hmarks, huserinfo⟩,
      fun ⟨hmarks, huserinfo⟩ => ⟨List.all_iff_forall_prop.2 hmarks, huserinfo⟩⟩

variable {host : String} {port : Nat} {ssl : Bool} {url : Url}

theorem endsAuthority_iff {ssl : Bool} {c : Char} :
    endsAuthority (schemeOf ssl) c = true ↔ c ∈ ['/', '\\', '?', '#'] := by
  rw [endsAuthority, isSlash_of_special (special_schemeOf ssl), endsPath]
  simp [or_assoc]

/-! ### A host in its place -/

/-- The path of the service is read behind a host that stays in its place. -/
theorem behindAuthority_servicePath (ssl : Bool) (authority : Authority) :
    behindAuthority (schemeOf ssl) authority servicePath.toList =
      ⟨schemeOf ssl, some authority, .segments ["sap", "bc", "cts_abapvcs", ""], none, none⟩ := by
  cases ssl <;> rfl

/-- The port that is written behind a host belongs to neither side of an at sign in it. -/
theorem parts_of_host (read : List Char) (port : Nat) :
    (∃ front, behindAt (read ++ ':' :: Nat.toDigits 10 port) =
        front ++ ':' :: Nat.toDigits 10 port) ∧
      beforeAt (read ++ ':' :: Nat.toDigits 10 port) = beforeAt read := by
  have hport : '@' ∉ ':' :: Nat.toDigits 10 port := by
    rw [List.mem_cons, not_or]
    exact ⟨by decide, fun hc => (spec_of_mem_toDigits hc).2.2.2 rfl⟩
  by_cases hat : '@' ∈ read
  · obtain ⟨front, rest, rfl, hrest⟩ := exists_last_of_mem hat
    have hboth : '@' ∉ rest ++ ':' :: Nat.toDigits 10 port := by
      rw [List.mem_append, not_or]
      exact ⟨hrest, hport⟩
    rw [List.append_assoc, List.cons_append, (parts_of_append hboth).1, (parts_of_append hboth).2,
      (parts_of_append hrest).2]
    exact ⟨⟨rest, rfl⟩, rfl⟩
  · have hboth : '@' ∉ read ++ ':' :: Nat.toDigits 10 port := by
      rw [List.mem_append, not_or]
      exact ⟨hat, hport⟩
    rw [(parts_of_not_mem hboth).1, (parts_of_not_mem hboth).2, (parts_of_not_mem hat).2]
    exact ⟨⟨read, rfl⟩, rfl⟩

/-- A host none of whose characters ends the authority leads to the root exactly if it has no
    user information. -/
theorem isServiceRoot_iff_of_marks
    (h : readAuthority (schemeOf ssl) (hostRead host ++ behindHost port) = .ok url)
    (hmarks : ∀ c ∈ hostRead host, c ∉ ['/', '\\', '?', '#']) :
    IsServiceRoot ssl port url ↔
      beforeAt (hostRead host) = [] ∨ beforeAt (hostRead host) = [':'] := by
  have hstays : ∀ c ∈ hostRead host ++ ':' :: Nat.toDigits 10 port,
      (!endsAuthority (schemeOf ssl) c) = true := by
    intro c hc
    rw [Bool.not_eq_true', Bool.eq_false_iff, ne_eq, endsAuthority_iff]
    rw [List.mem_append, List.mem_cons] at hc
    rcases hc with hc | rfl | hc
    · exact hmarks c hc
    · decide
    · exact (spec_of_mem_toDigits hc).2.2.1
  have htext : hostRead host ++ behindHost port =
      (hostRead host ++ ':' :: Nat.toDigits 10 port) ++ servicePath.toList := by
    rw [behindHost, List.append_assoc]
  have hinside : servicePath.toList.takeWhile (!endsAuthority (schemeOf ssl) ·) = [] := by
    cases ssl <;> decide
  have houtside : servicePath.toList.dropWhile (!endsAuthority (schemeOf ssl) ·) =
      servicePath.toList := by
    cases ssl <;> decide
  obtain ⟨authority, hread, rfl⟩ := exists_of_readAuthority h
  rw [htext, inside, List.takeWhile_append_of_pos hstays, hinside, List.append_nil] at hread
  rw [htext, outside, List.dropWhile_append_of_pos hstays, houtside, behindAuthority_servicePath]
  -- the digits behind the host are read as the port
  obtain ⟨⟨front, hbehind⟩, hbefore⟩ := parts_of_host (hostRead host) port
  have hdigits := portDigits_eq (special_schemeOf ssl) hread hbehind Nat.toDigits_ne_nil
    fun c hc => (spec_of_mem_toDigits hc).1
  have hport := hread.port
  rw [hdigits] at hport
  have huserinfo := hread.userinfo
  rw [hbefore] at huserinfo
  rw [← readUserinfo_eq_none_iff, huserinfo, Prod.mk.injEq]
  constructor
  · intro hroot
    obtain ⟨_, ⟨⟩, hname, hpassword⟩ := hroot.userinfo
    exact ⟨hname, hpassword⟩
  · rintro ⟨hname, hpassword⟩
    refine ⟨rfl, ?_, ?_, ⟨authority, rfl, hname, hpassword⟩, rfl, rfl⟩
    · rw [effectivePort?_eq]
      exact port_of_readPort hport
    · show (Path.segments ["sap", "bc", "cts_abapvcs", ""]).text = servicePath
      decide

/-! ### A host that goes on behind its place -/

/-- The port that is written behind a host becomes a part of the path. -/
theorem colon_mem_pathFrom (ssl : Bool) (text : List Char) (port : Nat) :
    ∃ names, pathFrom (schemeOf ssl) [] (text ++ behindHost port) = .segments names ∧
      ':' ∈ (Path.segments names).text.toList := by
  have hpieces : splitAt (isSlash (schemeOf ssl)) (behindHost port) =
      (':' :: Nat.toDigits 10 port) ::
        ["sap".toList, "bc".toList, "cts_abapvcs".toList, "".toList] := by
    have hport : ∀ c ∈ ':' :: Nat.toDigits 10 port, isSlash (schemeOf ssl) c = false := by
      intro c hc
      rw [isSlash_of_special (special_schemeOf ssl)]
      rcases List.mem_cons.1 hc with rfl | hc
      · decide
      · have hmarks := (spec_of_mem_toDigits hc).2.2.1
        simp only [List.mem_cons, not_or] at hmarks
        simp [hmarks]
    have hslash : isSlash (schemeOf ssl) '/' = true := by cases ssl <;> decide
    have htext : behindHost port =
        (':' :: Nat.toDigits 10 port) ++ '/' :: "sap/bc/cts_abapvcs/".toList := rfl
    rw [htext, splitAt_append_break hport hslash]
    congr 1
    cases ssl <;> decide
  obtain ⟨before, last, -, hsplit⟩ := exists_splitAt_append text hpieces
  obtain ⟨names, hnames⟩ := exists_addPieces_append [] before
    (List.cons_ne_nil (last ++ ':' :: Nat.toDigits 10 port)
      ["sap".toList, "bc".toList, "cts_abapvcs".toList, "".toList])
  -- the piece with the port is a segment, and so are the pieces of the path behind it
  have hmem : ':' ∈ last ++ ':' :: Nat.toDigits 10 port := by simp
  obtain ⟨hdouble, hsingle⟩ := not_dots_of_mem hmem
  let name := percentEncode inPath (last ++ ':' :: Nat.toDigits 10 port)
  have hname : ':' ∈ name := List.mem_flatMap.2 ⟨':', hmem, by decide⟩
  have hpath : pathFrom (schemeOf ssl) [] (text ++ behindHost port) =
      .segments (names ++ [String.ofList name] ++ ["sap", "bc", "cts_abapvcs", ""]) := by
    rw [pathFrom, if_neg (not_file_schemeOf ssl), decide_eq_false (not_file_schemeOf ssl), hsplit,
      hnames, addPieces, addPiece_of_name hdouble hsingle, addPieces_of_literal (by decide)]
    · rfl
    · exact List.cons_ne_nil _ _
  refine ⟨_, hpath, ?_⟩
  rw [Path.text, String.toList_join]
  refine List.mem_flatMap.2 ⟨"/" ++ String.ofList name, List.mem_map.2 ⟨_, by simp, rfl⟩, ?_⟩
  have htext : ("/" ++ String.ofList name).toList = '/' :: name := by simp
  rw [htext]
  exact List.mem_cons_of_mem _ hname

/-- A host with a character that ends the authority leads elsewhere. -/
theorem not_isServiceRoot_of_mark
    (h : readAuthority (schemeOf ssl) (hostRead host ++ behindHost port) = .ok url)
    (hmark : ∃ c ∈ hostRead host, c ∈ ['/', '\\', '?', '#']) : ¬ IsServiceRoot ssl port url := by
  intro hroot
  obtain ⟨authority, -, rfl⟩ := exists_of_readAuthority h
  obtain ⟨c, hc, hmark⟩ := hmark
  cases hdrop : (hostRead host).dropWhile (!endsAuthority (schemeOf ssl) ·) with
  | nil =>
    have hstays := List.dropWhile_eq_nil_iff.1 hdrop c hc
    rw [endsAuthority_iff.2 hmark] at hstays
    cases hstays
  | cons e rest =>
    have houtside : outside (schemeOf ssl) (hostRead host ++ behindHost port) =
        e :: (rest ++ behindHost port) := by
      rw [outside, List.dropWhile_append, hdrop]
      rfl
    rw [houtside] at hroot
    by_cases hends : endsPath e = true
    · -- the port and the path are in the query or in the fragment
      rw [behindAuthority, if_pos hends, if_pos (special_schemeOf ssl)] at hroot
      have hunmarked := unmarked_of_withPathAndTail hroot.query hroot.fragment
      rw [hunmarked e List.mem_cons_self] at hends
      cases hends
    · rw [behindAuthority, if_neg hends] at hroot
      have hunmarked := unmarked_of_withPathAndTail hroot.query hroot.fragment
      obtain ⟨names, hnames, hcolon⟩ := colon_mem_pathFrom ssl rest port
      have hpath := hroot.path
      rw [withPathAndTail_of_unmarked hunmarked, hnames] at hpath
      have htext : (Path.segments names).text = servicePath := hpath
      rw [htext] at hcolon
      revert hcolon
      decide

/-! ### Every host -/

/-- The address of a host has the scheme of the settings.  It is the root of the service
    exactly if the host stays in its place and has no user information. -/
theorem isServiceRoot_iff (h : baseUrl host port ssl = .ok url) :
    url.scheme = schemeOf ssl ∧ (IsServiceRoot ssl port url ↔ StaysInHost host) := by
  have hread := readAuthority_of_baseUrl h
  refine ⟨(yields_readAuthority _ _ url hread).scheme, ?_⟩
  by_cases hmarks : ∀ c ∈ hostRead host, c ∉ ['/', '\\', '?', '#']
  · rw [isServiceRoot_iff_of_marks hread hmarks]
    exact ⟨fun huserinfo => ⟨hmarks, huserinfo⟩, fun hstays => hstays.userinfo⟩
  · have hmark : ∃ c ∈ hostRead host, c ∈ ['/', '\\', '?', '#'] := by
      simpa only [not_forall, not_not, exists_prop] using hmarks
    exact iff_of_false (not_isServiceRoot_of_mark hread hmark) fun hstays => hmarks hstays.marks

/-- An address of eight numbers stays in its place, and an at sign in front is nothing. -/
theorem isServiceRoot_iff_brackets :
    (∃ url, baseUrl "@[::1]" 8000 false = .ok url ∧ IsServiceRoot false 8000 url) ∧
      ∃ url, baseUrl "localhost/x" 8000 false = .ok url ∧ url.scheme = "http" ∧
        ¬ IsServiceRoot false 8000 url := by
  constructor
  · obtain ⟨url, hbase⟩ : ∃ url, baseUrl "@[::1]" 8000 false = .ok url :=
      ⟨⟨"http", some ⟨"", none, .ipv6 [0, 0, 0, 0, 0, 0, 0, 1], some 8000⟩,
        .segments ["sap", "bc", "cts_abapvcs", ""], none, none⟩, by decide +kernel⟩
    exact ⟨url, hbase, (isServiceRoot_iff hbase).2.2 (by decide +kernel)⟩
  · obtain ⟨url, hbase⟩ : ∃ url, baseUrl "localhost/x" 8000 false = .ok url :=
      ⟨⟨"http", some ⟨"", none, .domain "localhost", none⟩,
        .segments ["x:8000", "sap", "bc", "cts_abapvcs", ""], none, none⟩, by decide +kernel⟩
    obtain ⟨hscheme, hroot⟩ := isServiceRoot_iff hbase
    exact ⟨url, hbase, hscheme, fun h => absurd (hroot.1 h) (by decide +kernel)⟩

/-- So not every host that leads to an address leads to the root of the service: one with a
    slash in it takes the port into the path. -/
theorem not_isServiceRoot :
    ¬ ∀ host port ssl url, baseUrl host port ssl = .ok url → IsServiceRoot ssl port url := by
  intro h
  have hbase : baseUrl "localhost/x" 8000 false =
      .ok ⟨"http", some ⟨"", none, .domain "localhost", none⟩,
        .segments ["x:8000", "sap", "bc", "cts_abapvcs", ""], none, none⟩ := by decide +kernel
  have hport := (h _ _ _ _ hbase).port
  revert hport
  decide

end GitTransport.Settings
