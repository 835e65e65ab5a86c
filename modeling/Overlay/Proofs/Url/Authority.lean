import Overlay.Proofs.Url.Host
import Overlay.Url.Basic

/-!
# Users, hosts and ports in their normal form

What stands between the slashes behind the scheme and the path: user name and password with an at
sign behind them, the host, and the port behind a colon. Each part in its normal form is found again
where it was written, and read as it is (`splitUserinfo_userinfo`, `readHostAndPort_self`).
-/

namespace Overlay.Url

open Text LawfulReader

/-! ## User names and passwords -/

theorem userinfoSet_of_mem_escapeChars : ∀ c ∈ escapeChars, userinfoSet c = false :=
  List.all_iff_forall_prop.mp (by decide +kernel)

theorem not_userinfoSet_of_mem {cs : List Char} {c : Char} (h : c ∈ percentEncode userinfoSet cs) :
    userinfoSet c = false :=
  not_set_of_mem_percentEncode userinfoSet_of_mem_escapeChars h

/-- User name and password in their normal form. -/
inductive IsUser : List Char → Prop
  | name (name : List Char) (hne : name ≠ []) (hname : ∀ c ∈ name, userinfoSet c = false) :
    IsUser name
  | password (name password : List Char) (hne : password ≠ [])
    (hname : ∀ c ∈ name, userinfoSet c = false)
    (hpassword : ∀ c ∈ password, userinfoSet c = false) : IsUser (name ++ ':' :: password)

/-- User name and password with the at sign behind them, or nothing. -/
def IsUserinfo (s : String) : Prop :=
  s = "" ∨ ∃ user, IsUser user ∧ s = String.ofList (user ++ ['@'])

/-- Userinfo is written in the form that is kept when it is read again. -/
theorem isUserinfo_normalUserinfo (cs : List Char) : IsUserinfo (normalUserinfo cs) := by
  simp only [normalUserinfo]
  generalize cs.takeWhile (· ≠ ':') = name
  generalize cs.drop (name.length + 1) = password
  split
  · split
    · exact Or.inl rfl
    · next hname =>
      refine Or.inr ⟨percentEncode userinfoSet name, .name _ (percentEncode_eq_nil.not.mpr hname)
        fun c => not_userinfoSet_of_mem, ?_⟩
      rw [String.ofList_append]
  · next hpassword =>
    refine Or.inr ⟨percentEncode userinfoSet name ++ ':' :: percentEncode userinfoSet password,
      .password _ _ (percentEncode_eq_nil.not.mpr hpassword) (fun c => not_userinfoSet_of_mem)
        fun c => not_userinfoSet_of_mem, ?_⟩
    rw [← String.toList_inj]
    simp

theorem colon_not_mem {cs : List Char} (h : ∀ c ∈ cs, userinfoSet c = false) : ':' ∉ cs :=
  fun hc => absurd (h _ hc) (by decide)

/-- User name and password in normal form are read as they are. -/
theorem normalUserinfo_self {user : List Char} (h : IsUser user) :
    normalUserinfo user = String.ofList (user ++ ['@']) := by
  cases h with
  | name _ hne hname =>
    have htake : user.takeWhile (· ≠ ':') = user := takeWhile_ne_self (colon_not_mem hname)
    have hdrop : user.drop (user.length + 1) = [] := List.drop_eq_nil_of_le (Nat.le_succ _)
    simp only [normalUserinfo, htake, hdrop, if_true, if_neg hne, percentEncode_self hname,
      String.ofList_append]
  | password name password hne hname hpassword =>
    have htake : (name ++ ':' :: password).takeWhile (· ≠ ':') = name :=
      takeWhile_ne_append (colon_not_mem hname) (by simp)
    have hdrop : (name ++ ':' :: password).drop (name.length + 1) = password := by
      rw [List.drop_length_add_append]
      rfl
    simp only [normalUserinfo, htake, hdrop, if_neg hne, percentEncode_self hname,
      percentEncode_self hpassword]
    rw [← String.toList_inj]
    simp

theorem not_endsHost_of_userinfoSet {c : Char} (h : userinfoSet c = false) : ¬ EndsHost c := by
  have hascii : c.toNat < 128 := by
    simp only [userinfoSet, fragmentSet, controlSet, Bool.or_eq_false_iff,
      decide_eq_false_iff_not] at h
    omega
  exact of_ascii (P := fun c => userinfoSet c = false → ¬ EndsHost c) (by decide +kernel) hascii h

theorem IsUser.not_endsHost {user : List Char} (h : IsUser user) {c : Char} (hc : c ∈ user) :
    ¬ EndsHost c := by
  cases h with
  | name _ hne hname => exact not_endsHost_of_userinfoSet (hname c hc)
  | password name password hne hname hpassword =>
    rcases List.mem_append.mp hc with hc | hc
    · exact not_endsHost_of_userinfoSet (hname c hc)
    · rcases List.mem_cons.mp hc with rfl | hc
      · decide
      · exact not_endsHost_of_userinfoSet (hpassword c hc)

theorem splitUserinfo_of_not_mem {cs : List Char} (h : '@' ∉ cs) : splitUserinfo cs = none := by
  rw [splitUserinfo, if_neg]
  rwa [List.contains_iff_mem]

/-- The user is found again before the last at sign. -/
theorem splitUserinfo_append {user server : List Char} (h : '@' ∉ server) :
    splitUserinfo (user ++ '@' :: server) = some (user, server) := by
  have hbehind : ((user ++ '@' :: server).reverse.takeWhile (· ≠ '@')).reverse = server := by
    rw [List.reverse_append, List.reverse_cons, List.append_assoc, List.singleton_append,
      takeWhile_ne_append (List.mem_reverse.not.mpr h) (by simp), List.reverse_reverse]
  have hlength : (user ++ '@' :: server).length - server.length - 1 = user.length := by
    rw [List.length_append, List.length_cons]
    omega
  rw [splitUserinfo, if_pos]
  · simp only [hbehind, hlength, List.take_left]
  · rw [List.contains_iff_mem]
    exact List.mem_append_right _ List.mem_cons_self

/-- User name and password are found again before a text without at signs, and read as they are. -/
theorem splitUserinfo_userinfo {userinfo : String} {server : List Char} (h : IsUserinfo userinfo)
    (hserver : '@' ∉ server) : ∃ user, normalUserinfo user = userinfo
      ∧ (splitUserinfo (userinfo.toList ++ server)).getD ([], userinfo.toList ++ server)
        = (user, server) := by
  rcases h with rfl | ⟨user, huser, rfl⟩
  · refine ⟨[], rfl, ?_⟩
    rw [String.toList_empty, List.nil_append, splitUserinfo_of_not_mem hserver]
    rfl
  · refine ⟨user, normalUserinfo_self huser, ?_⟩
    rw [String.toList_ofList, List.append_assoc, List.singleton_append,
      splitUserinfo_append hserver]
    rfl

/-- The at sign is the only character that ends a host. -/
theorem IsUserinfo.not_endsHost {s : String} (h : IsUserinfo s) {c : Char} (hc : c ∈ s.toList) :
    ¬ EndsHost c ∨ c = '@' := by
  rcases h with rfl | ⟨user, huser, rfl⟩
  · cases hc
  · rw [String.toList_ofList] at hc
    rcases List.mem_append.mp hc with hc | hc
    · exact Or.inl (huser.not_endsHost hc)
    · exact Or.inr (List.mem_singleton.mp hc)

/-! ## Ports -/

/-- A port that is written: it fits 16 bits and is not the default one. -/
def IsPort (scheme : String) (p : Nat) : Prop := p < UInt16.size ∧ defaultPort? scheme ≠ some p

/-- A port behind its colon. -/
def portChars : Option Nat → List Char
  | none => []
  | some p => ':' :: (toString p).toList

/-- Every port that is read is one that is written. -/
theorem isPort_of_readPort {scheme : String} {cs : List Char} {port : Option Nat}
    (h : readPort scheme cs = .ok port) : ∀ p ∈ port, IsPort scheme p := by
  unfold readPort at h
  split at h
  · cases h
    simp
  · split at h
    · next n _ =>
      split at h
      · next hsize =>
        cases h
        split
        · simp
        · next hdefault =>
          rintro p ⟨⟩
          exact ⟨hsize, hdefault⟩
      · cases h
    · cases h

/-- A port is read back from its digits. -/
theorem readPort_toString {scheme : String} {p : Nat} (h : IsPort scheme p) :
    readPort scheme (toString p).toList = .ok (some p) := by
  have hne : (toString p).toList ≠ [] := by
    rw [Nat.toString_eq_repr, Nat.toList_repr]
    exact Nat.toDigits_ne_nil
  have hread : ofDecimal? (toString p).toList = some p := by
    rw [Nat.toString_eq_repr, Nat.toList_repr]
    exact ofDecimal?_eq_some.mpr (isDecimal_toDigits p)
  simp only [readPort, if_neg hne, hread, if_pos h.1, if_neg h.2]

theorem not_endsHost_of_mem_portChars {port : Option Nat} {c : Char} (h : c ∈ portChars port) :
    ¬ EndsHost c := by
  cases port with
  | none => cases h
  | some p =>
    rcases List.mem_cons.mp h with rfl | h
    · decide
    · rw [Nat.toString_eq_repr, Nat.toList_repr] at h
      have hdigit := Nat.isDigit_of_mem_toDigits (by decide) (by decide) h
      exact (not_endsHost_of_isHexDigit (isHexDigit_of_isDigit hdigit)).1

/-! ## Hosts with ports -/

theorem splitPort_cons {inBrackets : Bool} {c : Char} {cs : List Char}
    (h : c ≠ ':' ∨ inBrackets = true) : splitPort inBrackets (c :: cs)
      = (c :: (splitPort (if c = '[' then true else if c = ']' then false else inBrackets) cs).1,
        (splitPort (if c = '[' then true else if c = ']' then false else inBrackets) cs).2) := by
  have hinside : ¬ (c = ':' ∧ (!inBrackets) = true) := by
    rintro ⟨hcolon, houtside⟩
    rcases h with h | rfl
    · exact h hcolon
    · cases houtside
  rw [splitPort, if_neg hinside]

/-- Characters that are no brackets, and no colons outside of them, stand before the port. -/
theorem splitPort_append {inBrackets : Bool} {cs rest : List Char}
    (h : ∀ c ∈ cs, (c ≠ ':' ∨ inBrackets = true) ∧ c ≠ '[' ∧ c ≠ ']') :
    splitPort inBrackets (cs ++ rest)
      = (cs ++ (splitPort inBrackets rest).1, (splitPort inBrackets rest).2) := by
  induction cs with
  | nil => rfl
  | cons c cs ih =>
    obtain ⟨⟨hcolon, hopen, hclose⟩, hcs⟩ := List.forall_mem_cons.mp h
    rw [List.cons_append, splitPort_cons hcolon, if_neg hopen, if_neg hclose, ih hcs]
    rfl

theorem splitPort_portChars (port : Option Nat) :
    splitPort false (portChars port) = ([], port.map fun p => (toString p).toList) := by
  cases port with
  | none => rfl
  | some p => rfl

section Server

variable [Reader] [LawfulReader]

/-- A host in normal form is found again before its port. -/
theorem splitPort_host {host rest : List Char} (h : IsNormalHost host) :
    splitPort false (host ++ rest)
      = (host ++ (splitPort false rest).1, (splitPort false rest).2) := by
  have hname : ∀ c, IsNameChar c → (c ≠ ':' ∨ false = true) ∧ c ≠ '[' ∧ c ≠ ']' := by
    intro c hc
    refine ⟨Or.inl ?_, ?_, ?_⟩ <;> rintro rfl <;> exact absurd hc (by decide)
  cases h with
  | name _ hne hform hnumber =>
    exact splitPort_append fun c hc => hname c (isNameChar_of_mem hform hc)
  | ipv4 ip => exact splitPort_append fun c hc => hname c (isNameChar_of_mem_text hc)
  | ipv6 ip hip =>
    have hinside : ∀ c ∈ ip.text.toList, (c ≠ ':' ∨ true = true) ∧ c ≠ '[' ∧ c ≠ ']' := by
      intro c hc
      refine ⟨Or.inr rfl, ?_⟩
      rcases Ipv6.eq_colon_or_isHexDigit_of_mem_text hc with rfl | hc
      · decide
      · exact (not_endsHost_of_isHexDigit hc).2
    rw [List.cons_append, List.append_assoc, splitPort_cons (by decide), if_pos rfl,
      splitPort_append hinside, List.singleton_append, splitPort_cons (by decide),
      if_neg (by decide), if_pos rfl, List.cons_append, List.append_assoc]
    rfl

/-- Host and port in normal form are read as they are. -/
theorem readHostAndPort_self {scheme : String} {host : List Char} {port : Option Nat}
    (hhost : IsNormalHost host) (hport : ∀ p ∈ port, IsPort scheme p) :
    readHostAndPort scheme .special (host ++ portChars port) = .ok (String.ofList host, port) := by
  have hsplit : splitPort false (host ++ portChars port)
      = (host, port.map fun p => (toString p).toList) := by
    rw [splitPort_host hhost, splitPort_portChars, List.append_nil]
  have hne : ¬ (host = [] ∧ (SchemeType.special.isSpecial = true
      ∨ (port.map fun p => (toString p).toList).isSome = true)) := fun h => hhost.ne_nil h.1
  simp only [readHostAndPort, hsplit, if_neg hne, specialHost_self hhost]
  cases port with
  | none => rfl
  | some p =>
    simp only [Option.map_some, readPort_toString (hport p rfl)]
    rfl

/-- The host and port that are read are in normal form. -/
theorem isNormalHost_of_readHostAndPort {scheme : String} {cs : List Char} {host : String}
    {port : Option Nat} (h : readHostAndPort scheme .special cs = .ok (host, port)) :
    IsNormalHost host.toList ∧ ∀ p ∈ port, IsPort scheme p := by
  simp only [readHostAndPort] at h
  generalize splitPort false cs = parts at h
  split at h
  · cases h
  · cases hread : specialHost parts.1 with
    | error e =>
      rw [hread] at h
      cases h
    | ok name =>
      rw [hread] at h
      have hhost := isNormalHost_of_specialHost hread
      cases hport : parts.2 with
      | none =>
        rw [hport] at h
        cases h
        exact ⟨hhost, by simp⟩
      | some digits =>
        rw [hport] at h
        cases hn : readPort scheme digits with
        | error e =>
          simp only [hn] at h
          cases h
        | ok written =>
          simp only [hn] at h
          cases h
          exact ⟨hhost, isPort_of_readPort hn⟩

end Server

end Overlay.Url
