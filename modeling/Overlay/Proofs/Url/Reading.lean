import Overlay.Proofs.Url.Authority
import Overlay.Proofs.Url.Path

/-!
# Reading URLs back

The parts of a URL with a special scheme are in their normal form when it was read from a text
(`isNormal_of_parse`). In normal form, everything up to the path is read as it is, whatever stands
behind (`parse_authority`), so that the URL is read back from its text (`parse_text`).
-/

namespace Overlay.Url

open Text

/-! ## Characters -/

theorem lt_of_controlSet {c : Char} (hc : controlSet c = false) (hne : c ≠ ' ') :
    0x20 < c.toNat := by
  have hle : 0x20 ≤ c.toNat := by
    simp only [controlSet, Bool.or_eq_false_iff, decide_eq_false_iff_not] at hc
    omega
  refine Nat.lt_of_le_of_ne hle fun he => hne ?_
  rw [← Char.ofNat_toNat c, ← he]

theorem lt_of_fragmentSet {c : Char} (h : fragmentSet c = false) : 0x20 < c.toNat := by
  rw [fragmentSet, Bool.or_eq_false_iff] at h
  refine lt_of_controlSet h.1 ?_
  rintro rfl
  cases h.2

theorem lt_of_specialQuerySet {c : Char} (h : specialQuerySet c = false) : 0x20 < c.toNat := by
  rw [specialQuerySet, querySet, Bool.or_eq_false_iff, Bool.or_eq_false_iff] at h
  refine lt_of_controlSet h.1.1 ?_
  rintro rfl
  cases h.1.2

theorem fragmentSet_of_pathSet [Reader] {c : Char} (h : pathSet c = false) :
    fragmentSet c = false := by
  rw [pathSet, Bool.or_eq_false_iff, Bool.or_eq_false_iff] at h
  exact h.1.1

theorem lt_of_pathSet [Reader] {c : Char} (h : pathSet c = false) : 0x20 < c.toNat :=
  lt_of_fragmentSet (fragmentSet_of_pathSet h)

theorem lt_of_not_endsHost {c : Char} (h : ¬ EndsHost c) : 0x20 < c.toNat := by
  rw [EndsHost, not_or, Nat.not_le] at h
  exact h.1

theorem endsAuthority_eq_false {c : Char} (h : ¬ EndsHost c ∨ c = '@') :
    endsAuthority .special c = false := by
  rcases h with h | rfl
  · rw [Bool.eq_false_iff]
    intro hends
    simp only [endsAuthority, Bool.or_eq_true, Bool.and_eq_true, beq_iff_eq] at hends
    rcases hends with ((rfl | rfl) | rfl) | ⟨-, rfl⟩ <;> exact h (by decide)
  · decide

theorem specialQuerySet_of_mem_escapeChars : ∀ c ∈ escapeChars, specialQuerySet c = false :=
  List.all_iff_forall_prop.mp (by decide +kernel)

theorem fragmentSet_of_mem_escapeChars : ∀ c ∈ escapeChars, fragmentSet c = false :=
  List.all_iff_forall_prop.mp (by decide +kernel)

/-! ## Cutting -/

theorem cut_append {p : Char → Bool} {a b : List Char} (ha : ∀ c ∈ a, p c = false)
    (hb : ∀ c ∈ b.head?, p c = true) : cut p (a ++ b) = (a, b) := by
  have hpos : ∀ c ∈ a, (!p c) = true := fun c hc => by rw [ha c hc]; rfl
  rw [cut, List.takeWhile_append_of_pos hpos, List.dropWhile_append_of_pos hpos]
  cases b with
  | nil => simp
  | cons c b =>
    have hc : p c = true := hb c rfl
    simp [hc]

/-- A text without blanks and controls is not tidied. -/
theorem tidy_self {s : String} (h : ∀ c ∈ s.toList, 0x20 < c.toNat) : tidy s = s.toList := by
  have hedge : ∀ cs : List Char, (∀ c ∈ cs, 0x20 < c.toNat) → cs.dropWhile isEdge = cs := by
    intro cs hcs
    cases cs with
    | nil => rfl
    | cons c cs =>
      have hc : ¬ isEdge c = true := by
        rw [isEdge, decide_eq_true_iff, Nat.not_le]
        exact hcs c List.mem_cons_self
      exact List.dropWhile_cons_of_neg hc
  have hreverse : ∀ c ∈ s.toList.reverse, 0x20 < c.toNat := fun c hc => h c (List.mem_reverse.mp hc)
  rw [tidy, hedge _ h, hedge _ hreverse, List.reverse_reverse, List.filter_eq_self]
  intro c hc
  have hlow := h c hc
  rw [decide_eq_true_iff]
  refine ⟨?_, ?_, ?_⟩ <;> rintro rfl <;> exact absurd hlow (by decide)

/-- A path ends what stands before it, whatever stands behind. -/
theorem endsAuthority_of_head [Reader] {path t : List Char} (hpath : IsPathText path) :
    ∀ c ∈ (path ++ t).head?, endsAuthority .special c = true := by
  obtain ⟨rest, rfl⟩ := List.head?_eq_some_iff.mp hpath.head
  rintro c ⟨⟩
  rfl

/-- A path in normal form is found again before what ends it. -/
theorem cut_path [Reader] {path t : List Char} (hpath : IsPathText path)
    (ht : ∀ c ∈ t.head?, endsPath c = true) : cut endsPath (path ++ t) = (path, t) := by
  refine cut_append (fun c hc => ?_) ht
  have hset := (hpath.chars c hc).1
  rw [endsPath, Bool.or_eq_false_iff, beq_eq_false_iff_ne, beq_eq_false_iff_ne]
  refine ⟨?_, ?_⟩ <;> rintro rfl <;> cases hset

/-! ## Schemes -/

theorem eq_of_special {scheme : String} (h : SchemeType.of scheme = .special) :
    scheme = "http" ∨ scheme = "ws" ∨ scheme = "https" ∨ scheme = "wss" ∨ scheme = "ftp" := by
  unfold SchemeType.of at h
  split at h
  · cases h
  · split at h
    · next hport =>
      unfold defaultPort? at hport
      split at hport <;> simp_all
    · cases h

/-- A special scheme is found again before its colon. -/
theorem readScheme_special {scheme : String} (h : SchemeType.of scheme = .special)
    (rest : List Char) : readScheme (scheme.toList ++ ':' :: rest) = some (scheme, rest) := by
  rcases eq_of_special h with rfl | rfl | rfl | rfl | rfl <;> rfl

theorem lt_of_mem_special {scheme : String} (h : SchemeType.of scheme = .special) :
    ∀ c ∈ scheme.toList, 0x20 < c.toNat := by
  rcases eq_of_special h with rfl | rfl | rfl | rfl | rfl <;>
    exact List.all_iff_forall_prop.mp (by decide)

/-! ## Parts of a text -/

variable {u : Url}

/-- Host and port, as they stand behind the user. -/
def serverChars (host : String) (port : Option Nat) : List Char := host.toList ++ portChars port

theorem toList_authority {host : String} (h : u.host = some host) : u.authority.toList
    = '/' :: '/' :: (u.userinfo.toList ++ serverChars host u.port) := by
  rw [authority, h]
  cases hport : u.port <;> simp [serverChars, portChars]

/-- Query and fragment, as they stand behind the path. -/
def tailChars (u : Url) : List Char :=
  (match u.query with | some q => '?' :: q.toList | none => [])
    ++ (match u.fragment with | some f => '#' :: f.toList | none => [])

theorem endsPath_of_head (u : Url) : ∀ c ∈ u.tailChars.head?, endsPath c = true := by
  rw [tailChars]
  cases u.query <;> cases u.fragment <;> simp [endsPath]

/-- A URL with everything from the path on replaced by what a text writes. -/
def withTail [Reader] (u : Url) (t : List Char) : Url :=
  { u with path := hostPath .special (cut endsPath t).1,
           query := (readTail .special (cut endsPath t).2).1,
           fragment := (readTail .special (cut endsPath t).2).2 }

/-- Query and fragment are in their normal form when they are read. -/
theorem chars_of_readTail (cs : List Char) :
    (∀ q ∈ (readTail .special cs).1, ∀ c ∈ q.toList, specialQuerySet c = false)
      ∧ ∀ f ∈ (readTail .special cs).2, ∀ c ∈ f.toList, fragmentSet c = false := by
  simp only [readTail]
  constructor
  · split
    · rintro q ⟨⟩ c hc
      rw [String.toList_ofList] at hc
      exact not_set_of_mem_percentEncode specialQuerySet_of_mem_escapeChars hc
    · simp
  · split
    · rintro f ⟨⟩ c hc
      rw [String.toList_ofList] at hc
      exact not_set_of_mem_percentEncode fragmentSet_of_mem_escapeChars hc
    · simp

/-! ## URLs in normal form -/

variable [Reader]

/-- A URL with a special scheme whose parts are all in their normal form. -/
structure IsNormal (u : Url) : Prop where
  special : SchemeType.of u.scheme = .special
  userinfo : IsUserinfo u.userinfo
  host : ∃ host, u.host = some host ∧ IsNormalHost host.toList
  port : ∀ p ∈ u.port, IsPort u.scheme p
  path : IsPathText u.path.toList
  query : ∀ q ∈ u.query, ∀ c ∈ q.toList, specialQuerySet c = false
  fragment : ∀ f ∈ u.fragment, ∀ c ∈ f.toList, fragmentSet c = false

theorem serverChars_ne_nil {host : String} {port : Option Nat} (h : IsNormalHost host.toList) :
    serverChars host port ≠ [] := by
  rw [serverChars, Ne, List.append_eq_nil_iff, not_and]
  exact fun hnil => absurd hnil h.ne_nil

theorem lt_of_mem_tailChars (h : u.IsNormal) {c : Char} (hc : c ∈ u.tailChars) :
    0x20 < c.toNat := by
  rcases List.mem_append.mp hc with hc | hc
  · split at hc
    · next q hq =>
      rcases List.mem_cons.mp hc with rfl | hc
      · decide
      · exact lt_of_specialQuerySet (h.query q hq c hc)
    · cases hc
  · split at hc
    · next f hf =>
      rcases List.mem_cons.mp hc with rfl | hc
      · decide
      · exact lt_of_fragmentSet (h.fragment f hf c hc)
    · cases hc

/-- Query and fragment in normal form are read as they are. -/
theorem readTail_tailChars (h : u.IsNormal) :
    readTail .special u.tailChars = (u.query, u.fragment) := by
  have hquery : ∀ q ∈ u.query, percentEncode specialQuerySet q.toList = q.toList :=
    fun q hq => percentEncode_self (h.query q hq)
  have hfragment : ∀ f ∈ u.fragment, percentEncode fragmentSet f.toList = f.toList :=
    fun f hf => percentEncode_self (h.fragment f hf)
  have hhash : ∀ q ∈ u.query, ∀ c ∈ '?' :: q.toList, (c == '#') = false := by
    intro q hq c hc
    rw [beq_eq_false_iff_ne]
    rintro rfl
    rcases List.mem_cons.mp hc with hc | hc
    · cases hc
    · cases h.query q hq _ hc
  obtain ⟨scheme, userinfo, host, port, path, query, fragment⟩ := u
  cases query with
  | none =>
    cases fragment with
    | none => rfl
    | some f =>
      have hcut : cut (· == '#') ('#' :: f.toList) = ([], '#' :: f.toList) := rfl
      simp only [tailChars, List.nil_append, readTail, hcut, hfragment f rfl, String.ofList_toList]
  | some q =>
    cases fragment with
    | none =>
      have hcut : cut (· == '#') ('?' :: q.toList ++ []) = ('?' :: q.toList, []) :=
        cut_append (hhash q rfl) (by simp)
      simp only [tailChars, readTail, hcut, SchemeType.isSpecial, if_true, hquery q rfl,
        String.ofList_toList]
    | some f =>
      have hcut : cut (· == '#') ('?' :: q.toList ++ '#' :: f.toList)
          = ('?' :: q.toList, '#' :: f.toList) := cut_append (hhash q rfl) (by simp)
      simp only [tailChars, readTail, hcut, SchemeType.isSpecial, if_true, hquery q rfl,
        hfragment f rfl, String.ofList_toList]

/-- The text of a URL in normal form is its scheme, its authority, its path and its tail. -/
theorem text_eq (h : u.IsNormal) : u.text
    = u.scheme ++ ":" ++ u.authority ++ String.ofList (u.path.toList ++ u.tailChars) := by
  obtain ⟨host, hhost, -⟩ := h.host
  have hguarded : u.guardedPath = u.path := if_neg fun hnone => by
    rw [hhost] at hnone
    cases hnone.1
  rw [text, hguarded, ← String.toList_inj]
  cases hquery : u.query <;> cases hfragment : u.fragment <;>
    simp [tailChars, hquery, hfragment]

/-- The parts that a URL is made of. -/
theorem readWithAuthority_eq_ok {scheme : String} {type : SchemeType} {cs : List Char} {u : Url}
    (h : readWithAuthority scheme type cs = .ok u) :
    ∃ user server path tail host port, readHostAndPort scheme type server = .ok (host, port)
      ∧ u = { scheme, userinfo := normalUserinfo user, host := some host, port,
              path := hostPath type path, query := (readTail type tail).1,
              fragment := (readTail type tail).2 } := by
  simp only [readWithAuthority] at h
  split at h
  · cases h
  · generalize hserver : readHostAndPort scheme type _ = server at h
    cases server with
    | error e => cases h
    | ok server =>
      obtain ⟨host, port⟩ := server
      replace h : (if host = "" ∧ _ then _ else _) = Except.ok u := h
      split at h
      · cases h
      · exact ⟨_, _, _, _, host, port, hserver, (Except.ok.inj h).symm⟩

theorem scheme_of_readFile {cs : List Char} {u : Url} (h : readFile cs = .ok u) :
    u.scheme = "file" := by
  -- Whatever host is read, the URL that is built has this scheme.
  have hbuilt : ∀ (server : Except ParseError String) (build : String → Url),
      (∀ host, (build host).scheme = "file") → (server >>= fun host => pure (build host)) = .ok u →
      u.scheme = "file" := by
    intro server build hscheme hu
    cases server with
    | error e => cases hu
    | ok host => rw [← Except.ok.inj hu, hscheme]
  simp only [readFile] at h
  repeat' split at h
  all_goals exact hbuilt _ _ (fun _ => rfl) h

variable [LawfulReader]

/-- What is read behind the two slashes is in normal form. -/
theorem isNormal_of_readWithAuthority {scheme : String} {cs : List Char} {u : Url}
    (hspecial : SchemeType.of scheme = .special)
    (h : readWithAuthority scheme .special cs = .ok u) : IsNormal u := by
  obtain ⟨user, server, path, tail, host, port, hserver, rfl⟩ := readWithAuthority_eq_ok h
  obtain ⟨hhost, hport⟩ := isNormalHost_of_readHostAndPort hserver
  obtain ⟨hquery, hfragment⟩ := chars_of_readTail tail
  exact ⟨hspecial, isUserinfo_normalUserinfo user, ⟨host, rfl, hhost⟩, hport,
    isPathText_hostPath path, hquery, hfragment⟩

/-- A URL with a special scheme is in normal form when it was read from a text. -/
theorem isNormal_of_parse {s : String} {u : Url} (h : Url.parse s = .ok u)
    (hspecial : SchemeType.of u.scheme = .special) : IsNormal u := by
  unfold Url.parse at h
  split at h
  · cases h
  · next scheme rest hscheme =>
    split at h
    · rw [scheme_of_readFile h] at hspecial
      cases hspecial
    · next htype => exact isNormal_of_readWithAuthority htype h
    · next htype =>
      split at h
      · obtain ⟨user, server, path, tail, host, port, -, rfl⟩ := readWithAuthority_eq_ok h
        cases htype.symm.trans hspecial
      · cases h
        cases htype.symm.trans hspecial

/-! ## Reading back -/

theorem not_endsHost_of_mem_serverChars {host : String} {port : Option Nat}
    (h : IsNormalHost host.toList) {c : Char} (hc : c ∈ serverChars host port) : ¬ EndsHost c := by
  rcases List.mem_append.mp hc with hc | hc
  · exact not_endsHost_of_mem h hc
  · exact not_endsHost_of_mem_portChars hc

/-- No character of user, host and port ends what stands behind the two slashes. -/
theorem endsAuthority_of_mem (h : u.IsNormal) {host : String} (hhost : IsNormalHost host.toList)
    {c : Char} (hc : c ∈ u.userinfo.toList ++ serverChars host u.port) :
    endsAuthority .special c = false := by
  rcases List.mem_append.mp hc with hc | hc
  · exact endsAuthority_eq_false (h.userinfo.not_endsHost hc)
  · exact endsAuthority_eq_false (Or.inl (not_endsHost_of_mem_serverChars hhost hc))

/-- No character of user, host and port means nothing in a URL. -/
theorem lt_of_mem_authority (h : u.IsNormal) {host : String} (hhost : IsNormalHost host.toList)
    {c : Char} (hc : c ∈ u.userinfo.toList ++ serverChars host u.port) : 0x20 < c.toNat := by
  rcases List.mem_append.mp hc with hc | hc
  · rcases h.userinfo.not_endsHost hc with hc | rfl
    · exact lt_of_not_endsHost hc
    · decide
  · exact lt_of_not_endsHost (not_endsHost_of_mem_serverChars hhost hc)

/-- Behind the two slashes everything up to the path is read as it is, whatever stands behind. -/
theorem readWithAuthority_append (h : u.IsNormal) {host : String} (hhost : u.host = some host)
    (hnormal : IsNormalHost host.toList) {t : List Char}
    (ht : ∀ c ∈ t.head?, endsAuthority .special c = true) :
    readWithAuthority u.scheme .special (u.userinfo.toList ++ serverChars host u.port ++ t)
      = .ok (u.withTail t) := by
  have hends : ∀ c ∈ serverChars host u.port, ¬ EndsHost c :=
    fun c => not_endsHost_of_mem_serverChars hnormal
  have hauthority : ∀ c ∈ u.userinfo.toList ++ serverChars host u.port,
      endsAuthority .special c = false := fun c => endsAuthority_of_mem h hnormal
  have hat : '@' ∉ serverChars host u.port := fun hc => hends _ hc (by decide)
  obtain ⟨user, huser, hsplit⟩ := splitUserinfo_userinfo h.userinfo hat
  have hserver :
      readHostAndPort u.scheme .special (serverChars host u.port) = .ok (host, u.port) := by
    rw [serverChars, readHostAndPort_self hnormal h.port, String.ofList_toList]
  have hne : host ≠ "" := fun he => hnormal.ne_nil (by rw [he]; rfl)
  have hfound : ¬ (user = [] ∧ serverChars host u.port = []
      ∧ u.userinfo.toList ++ serverChars host u.port ≠ [] ∧ t ≠ []) :=
    fun hnil => serverChars_ne_nil hnormal hnil.2.1
  simp only [readWithAuthority, cut_append hauthority ht, hsplit, if_neg hfound, hserver, huser]
  replace hne : ¬ (host = "" ∧ u.userinfo ≠ "") := fun he => hne he.1
  rw [withTail, hhost]
  exact if_neg hne

/-- Everything up to the path is read as it is, whatever stands behind. -/
theorem parse_authority (h : u.IsNormal) {t : List Char} (hclean : ∀ c ∈ t, 0x20 < c.toNat)
    (ht : ∀ c ∈ t.head?, endsAuthority .special c = true) :
    Url.parse (u.scheme ++ ":" ++ u.authority ++ String.ofList t) = .ok (u.withTail t) := by
  obtain ⟨host, hhost, hnormal⟩ := h.host
  have hchars : (u.scheme ++ ":" ++ u.authority ++ String.ofList t).toList = u.scheme.toList
      ++ ':' :: '/' :: '/' :: (u.userinfo.toList ++ serverChars host u.port ++ t) := by
    simp [toList_authority hhost]
  have htidy : tidy (u.scheme ++ ":" ++ u.authority ++ String.ofList t) = u.scheme.toList
      ++ ':' :: '/' :: '/' :: (u.userinfo.toList ++ serverChars host u.port ++ t) := by
    rw [tidy_self, hchars]
    intro c hc
    rw [hchars, List.mem_append, List.mem_cons, List.mem_cons, List.mem_cons, List.mem_append] at hc
    rcases hc with hc | rfl | rfl | rfl | hc | hc
    · exact lt_of_mem_special h.special c hc
    · decide
    · decide
    · decide
    · exact lt_of_mem_authority h hnormal hc
    · exact hclean c hc
  -- The first character behind the two slashes is one of the user or the host, so it is no slash.
  have hdrop : (u.userinfo.toList ++ serverChars host u.port ++ t).dropWhile
      (fun c => c = '/' ∨ c = '\\') = u.userinfo.toList ++ serverChars host u.port ++ t := by
    obtain ⟨c, rest, hfirst⟩ : ∃ c rest, u.userinfo.toList ++ serverChars host u.port = c :: rest :=
      List.exists_cons_of_ne_nil fun hnil =>
        serverChars_ne_nil hnormal (List.append_eq_nil_iff.mp hnil).2
    have hc := endsAuthority_of_mem h hnormal (c := c) (by rw [hfirst]; exact List.mem_cons_self)
    rw [hfirst, List.cons_append, List.dropWhile_cons_of_neg]
    rw [decide_eq_true_iff]
    rintro (rfl | rfl) <;> cases hc
  rw [Url.parse, htidy, readScheme_special h.special]
  simp only [h.special]
  rw [List.dropWhile_cons_of_pos (by decide), List.dropWhile_cons_of_pos (by decide), hdrop]
  exact readWithAuthority_append h hhost hnormal ht

/-- A URL in normal form is read back from its text. -/
theorem parse_text (h : u.IsNormal) : Url.parse u.text = .ok u := by
  have hclean : ∀ c ∈ u.path.toList ++ u.tailChars, 0x20 < c.toNat := by
    intro c hc
    rcases List.mem_append.mp hc with hc | hc
    · exact lt_of_pathSet (h.path.chars c hc).1
    · exact lt_of_mem_tailChars h hc
  rw [text_eq h, parse_authority h hclean (endsAuthority_of_head h.path), withTail,
    cut_path h.path (endsPath_of_head u), readTail_tailChars h, hostPath_self h.path,
    String.ofList_toList]

end Overlay.Url
