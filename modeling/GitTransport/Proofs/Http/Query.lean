/-
The query of a request on the wire.

  The pairs of a request are written behind the address of its resource as a form.  Whoever
  reads the query as a form gets these pairs and no others, in their order and none of them
  changed, whatever characters they are made of; a query of empty pairs is not empty, so only
  a request without pairs has none.  The rest of the address is the same for all pairs
  (`Session.query_of_join`).
-/

import GitTransport.Proofs.Proxy.Addressing
import GitTransport.Proofs.Url.Query
import Mathlib.Data.Bool.AllAny

namespace GitTransport

namespace Session

open Url (Bare formPairs)

/-! ## Writing the pairs -/

/-- The query that a list of pairs is written as; no pairs make none. -/
def written (pairs : List (String × String)) : Option String :=
  if pairs = [] then none else some (String.ofList (Url.appendPairs [] pairs))

theorem written_eq_none_iff (pairs : List (String × String)) :
    written pairs = none ↔ pairs = [] := by
  rw [written]
  split
  · next hpairs => exact iff_of_true rfl hpairs
  · next hpairs => exact iff_of_false (Option.some_ne_none _) hpairs

/-- No pairs are written as an empty query. -/
theorem written_ne_empty (pairs : List (String × String)) : written pairs ≠ some "" := by
  intro h
  rw [written] at h
  split at h
  · cases h
  · next hpairs =>
    have hempty := congrArg String.toList (Option.some.inj h)
    rw [String.toList_ofList] at hempty
    exact hpairs ((Url.appendPairs_eq_nil_iff pairs).1 hempty)

/-- What is written can be read back. -/
theorem formPairs_written (pairs : List (String × String)) :
    formPairs ((written pairs).getD "").toList = pairs := by
  rw [written]
  split
  · next hpairs =>
    rw [hpairs]
    rfl
  · rw [Option.getD_some, String.toList_ofList, Url.formPairs_appendPairs]

/-- Behind an address that ends with its path the pairs are the query, and nothing else of
    the address changes. -/
theorem addQuery_eq {url : Url} (h : Bare url) (pairs : List (String × String)) :
    addQuery url pairs = { url with query := written pairs } := by
  have hstart : (url.query.getD "").toList = [] := by
    rw [h.query]
    rfl
  have hquery : (if (Url.appendPairs [] pairs).isEmpty then none
      else some (String.ofList (Url.appendPairs [] pairs))) = written pairs := by
    simp only [List.isEmpty_iff, Url.appendPairs_eq_nil_iff]
    rfl
  rw [addQuery, hstart]
  simp only [hquery]
  exact Url.withQuery_eq h.ending _

/-- In the text of an address the query stands behind everything else. -/
theorem text_of_bare {url : Url} (h : Bare url) (query : Option String) :
    { url with query := query : Url }.text = url.text ++ (query.map ("?" ++ ·)).getD "" := by
  obtain ⟨scheme, authority, path, own, fragment⟩ := url
  obtain ⟨rfl, rfl, -⟩ := h
  cases query with
  | none => simp [Url.text]
  | some query => simp [Url.text, Url.pathText]

/-! ## The address of a request -/

variable {session : Session} {path : String} {joined : Url}

/-- The query of a request holds the client of the session, if there is one, and the
    parameters of the request behind it; there is no query exactly if there are none of
    them.  What stands before the query does not depend on them. -/
theorem query_of_join (hbase : session.baseUrl.query = none)
    (hmarks : ∀ c ∈ path.toList, c ≠ '?' ∧ c ≠ '#')
    (hjoin : session.baseUrl.join path = .ok joined) (params : List (String × String)) :
    ∃ url, session.urlFor path params = .ok url ∧
      formPairs (url.query.getD "").toList =
        (session.client.map fun client => ("sap-client", client)).toList ++ params ∧
      (url.query = none ↔ session.client = none ∧ params = []) ∧ url.query ≠ some "" ∧
      { url with query := none } = joined ∧
      url.text = joined.text ++ (url.query.map ("?" ++ ·)).getD "" := by
  have hbare : Bare joined := by
    refine Url.bare_of_join hjoin hbase fun c hc => ?_
    obtain ⟨hquery, hfragment⟩ := hmarks c hc
    simp [Url.endsPath, hquery, hfragment]
  have hurl : session.urlFor path params =
      .ok { joined with query := written (session.queryPairs params) } := by
    rw [urlFor, hjoin, ← addQuery_eq hbare]
    rfl
  have hnone : written (session.queryPairs params) = none ↔
      session.client = none ∧ params = [] := by
    rw [written_eq_none_iff, queryPairs, List.append_eq_nil_iff, Option.toList_eq_nil_iff,
      Option.map_eq_none_iff]
  refine ⟨_, hurl, formPairs_written _, hnone, written_ne_empty _, ?_, text_of_bare hbare _⟩
  rw [← hbare.query]

/-- A client and a parameter with the marks of forms, and a pair of nothing. -/
theorem query_of_join_marks :
    ∃ url, { Session.local with client := some "1&0=0" }.urlFor "repository/demo"
        [("branch", "a+b c%26"), ("", "")] = .ok url ∧
      formPairs (url.query.getD "").toList =
        [("sap-client", "1&0=0"), ("branch", "a+b c%26"), ("", "")] ∧
      url.query.isSome = true := by
  obtain ⟨joined, hjoin⟩ : ∃ joined, Session.local.baseUrl.join "repository/demo" = .ok joined :=
    ⟨⟨"http", some ⟨"", none, .domain "localhost", some 8000⟩,
      .segments ["sap", "bc", "cts_abapvcs", "repository", "demo"], none, none⟩, by decide +kernel⟩
  have hbase : { Session.local with client := some "1&0=0" }.baseUrl.query = none := rfl
  obtain ⟨url, hurl, hpairs, hnone, -⟩ :=
    query_of_join hbase (List.all_iff_forall_prop.1 (by decide)) hjoin
      [("branch", "a+b c%26"), ("", "")]
  refine ⟨url, hurl, hpairs, Option.isSome_iff_ne_none.2 fun hquery => ?_⟩
  cases (hnone.1 hquery).1

end Session

end GitTransport
