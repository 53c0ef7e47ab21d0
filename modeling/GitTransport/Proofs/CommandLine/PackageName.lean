/-
The name that a clone is registered under when none is given.

  The name is the last piece of the address, without the ending of remote repositories
  (`packageName_append`).  Behind a slash at the end the last piece is empty.  So of the
  four ways to write down where a repository is, those without a slash at the end lead to
  its name, and the other two to an empty one (`packageName_of_spelling`); and the
  command for a clone registers the repository under that name.
-/

import GitTransport.CommandLine.Execution
import GitTransport.Proofs.Text.Pieces
import GitTransport.Proofs.Workflow.Cloning

namespace GitTransport

open Exchange Text

/-! ## The last piece -/

/-- The name is what stands behind the last slash, without the ending. -/
theorem packageName_append {front piece : String} (hfront : IsFront front)
    (hpiece : '/' ∉ piece.toList) : packageName (front ++ piece) =
      String.ofList (withoutEnding repositoryEnding piece.toList) := by
  -- the slash at the end of the front, if there is one, is the last one
  have hlast : behindLast '/' (front ++ piece).toList = piece.toList := by
    rcases hfront with rfl | ⟨start, rfl⟩
    · rw [String.empty_append]
      exact behindLast_of_not_mem hpiece
    · rw [String.toList_append, String.toList_append, List.append_assoc]
      exact behindLast_append hpiece
  have hname : packageName (front ++ piece) = String.ofList
      (withoutEnding repositoryEnding (behindLast '/' (front ++ piece).toList)) := rfl
  rw [hname, hlast]

/-! ## The ways to write down a repository -/

/-- How an address goes on behind the name of a repository. -/
structure Spelling where
  /-- Whether the ending of remote repositories is there. -/
  ending : Bool
  /-- Whether a slash is at the end. -/
  slash : Bool
  deriving DecidableEq, Repr

namespace Spelling

/-- The text behind the name. -/
def text (spelling : Spelling) : String :=
  (if spelling.ending then ".git" else "") ++ (if spelling.slash then "/" else "")

/-- The address of a repository. -/
def address (spelling : Spelling) (front name : String) : String := front ++ name ++ spelling.text

variable {front name : String}

theorem packageName_of_slash (ending : Bool) (front name : String) :
    packageName ((⟨ending, true⟩ : Spelling).address front name) = "" := by
  have haddress : (⟨ending, true⟩ : Spelling).address front name =
      (front ++ name ++ if ending then ".git" else "") ++ "/" ++ "" := by
    simp [address, text, String.append_assoc]
  rw [haddress, packageName_append (.inr ⟨_, rfl⟩) (by decide)]
  rfl

theorem packageName_of_no_slash (ending : Bool) (hfront : IsFront front) (hname : IsName name) :
    packageName ((⟨ending, false⟩ : Spelling).address front name) = name := by
  cases ending with
  | true =>
    have haddress : (⟨true, false⟩ : Spelling).address front name = front ++ (name ++ ".git") := by
      simp [address, text, String.append_assoc]
    have hpiece : '/' ∉ (name ++ ".git").toList := by
      rw [String.toList_append, List.mem_append, not_or]
      exact ⟨hname.slashes, by decide⟩
    have hlast : withoutEnding repositoryEnding (name ++ ".git").toList = name.toList := by
      rw [String.toList_append]
      exact withoutEnding_append _ _
    rw [haddress, packageName_append hfront hpiece, hlast, String.ofList_toList]
  | false =>
    have haddress : (⟨false, false⟩ : Spelling).address front name = front ++ name := by
      simp [address, text]
    have hlast : withoutEnding repositoryEnding name.toList = name.toList :=
      withoutEnding_of_not_suffix hname.ending
    rw [haddress, packageName_append hfront hname.slashes, hlast, String.ofList_toList]

end Spelling

/-! ## The command -/

namespace Workflow

variable {name : String} {options : CloneOptions} {data : Fields Json}
  {asked : List (Request × Reply)} {outcome : Except Error Proxy}

/-- Whatever course a clone takes, it begins with the registration. -/
theorem Course.begins (h : Course name options data asked outcome) :
    ∃ reply rest, asked = (Registration.request name data, reply) :: rest := by
  cases h with
  | refused => exact ⟨_, _, rfl⟩
  | registered => exact ⟨_, _, rfl⟩
  | unread => exact ⟨_, _, rfl⟩
  | found => exact ⟨_, _, rfl⟩

end Workflow

namespace CommandLine

open Routine Workflow

/-- The first request of the command registers the repository, without a given name under
    that of the address. -/
theorem begins_of_cloned {url : String} {options : CloneOptions} {asked : List (Request × Reply)}
    {x : Except Failure Unit × List String}
    (h : Path (Action.clone url none options).routine.run asked x) :
    ∃ data reply rest,
      (options.registration url).record (.new (packageName url)) = .ok data ∧
        asked = (Registration.request (packageName url) data, reply) :: rest := by
  obtain ⟨data, hdata⟩ := exists_record url (packageName url) options
  obtain ⟨next, hcall⟩ : ∃ next, (Action.clone url none options).routine =
      .call (cloneNew url (packageName url) options) next := ⟨_, rfl⟩
  rw [hcall, Routine.run] at h
  obtain ⟨first, outcome, rest, rfl, hclone, -⟩ := path_bind_iff.1 h
  obtain ⟨reply, others, rfl⟩ := ((path_cloneNew_iff_course hdata).1 hclone).begins
  exact ⟨data, reply, others ++ rest, hdata, rfl⟩

/-- An address leads to the name of its repository exactly if no slash is at the end, and to
    an empty name otherwise.  Under that name the command for a clone registers the repository
    when it is given none. -/
theorem packageName_of_spelling {front name : String} (hfront : IsFront front)
    (hname : IsName name) (spelling : Spelling) :
    (packageName (spelling.address front name) = name ↔ spelling.slash = false) ∧
      (packageName (spelling.address front name) = "" ↔ spelling.slash = true) ∧
      ∀ options asked x,
        Path (Action.clone (spelling.address front name) none options).routine.run asked x →
        ∃ registered data reply rest,
          asked = (Registration.request registered data, reply) :: rest ∧
            (options.registration (spelling.address front name)).record (.new registered) =
              .ok data ∧
            (registered = name ↔ spelling.slash = false) ∧
            (registered = "" ↔ spelling.slash = true) := by
  have hnames : (packageName (spelling.address front name) = name ↔ spelling.slash = false) ∧
      (packageName (spelling.address front name) = "" ↔ spelling.slash = true) := by
    obtain ⟨ending, slash⟩ := spelling
    cases slash with
    | true =>
      rw [Spelling.packageName_of_slash]
      exact ⟨iff_of_false hname.nonempty.symm (by simp), iff_of_true rfl rfl⟩
    | false =>
      rw [Spelling.packageName_of_no_slash ending hfront hname]
      exact ⟨iff_of_true rfl rfl, iff_of_false hname.nonempty (by simp)⟩
  refine ⟨hnames.1, hnames.2, fun options asked x h => ?_⟩
  obtain ⟨data, reply, rest, hdata, hasked⟩ := begins_of_cloned h
  exact ⟨_, data, reply, rest, hasked, hdata, hnames⟩

/-- With the ending and a slash behind it the name of a repository is lost. -/
theorem packageName_of_spelling_endingAndSlash :
    IsFront "https://host/org/" ∧ IsName "demo" ∧
      packageName "https://host/org/demo.git" = "demo" ∧
      packageName "https://host/org/demo.git/" = "" := by
  have hfront : IsFront "https://host/org/" := .inr ⟨"https://host/org", rfl⟩
  have hname : IsName "demo" := by decide
  have haddress : (⟨true, false⟩ : Spelling).address "https://host/org/" "demo" =
      "https://host/org/demo.git" := by decide
  have hslash : (⟨true, true⟩ : Spelling).address "https://host/org/" "demo" =
      "https://host/org/demo.git/" := by decide
  refine ⟨hfront, hname, ?_, ?_⟩
  · rw [← haddress]
    exact (packageName_of_spelling hfront hname ⟨true, false⟩).1.2 rfl
  · rw [← hslash]
    exact (packageName_of_spelling hfront hname ⟨true, true⟩).2.1.2 rfl

/-- So not every way to write down a repository leads to its name. -/
theorem not_packageName_of_spelling :
    ¬ ∀ (front name : String) (spelling : Spelling), IsFront front → IsName name →
      packageName (spelling.address front name) = name := by
  intro h
  have heq := h "https://host/org/" "demo" ⟨false, true⟩ (.inr ⟨"https://host/org", rfl⟩)
    (by decide)
  rw [Spelling.packageName_of_slash] at heq
  revert heq
  decide

end CommandLine

end GitTransport
