import AnchorKit.InteractiveUrls

/-!
# URLs with an authority

A URL by its parts: a scheme, perhaps a user, a host, perhaps a port, and what follows. Its text
determines the parts.
-/

namespace AnchorKit

inductive UrlHost
  | name (text : Text)
  | literal (address : Text)
deriving DecidableEq

namespace UrlHost

def text : UrlHost → Text
  | .name n => n
  | .literal address => '[' :: address ++ [']']

/-- The host without brackets. -/
def content : UrlHost → Text
  | .name n => n
  | .literal address => address

def IsNameChar (c : Char) : Prop := endsAuthority c = false ∧ c ∉ ['@', ':', '[', ']']

inductive WellFormed : UrlHost → Prop
  | name {n : Text} (hne : n ≠ []) (hchars : ∀ c ∈ n, IsNameChar c) : WellFormed (.name n)
  | literal {address : Text} (hchars : ∀ c ∈ address, IsNameChar c ∨ c = ':') :
    WellFormed (.literal address)

end UrlHost

structure AuthorityUrl where
  scheme : Text
  userinfo : Option Text
  host : UrlHost
  port : Option Text
  rest : Text

namespace AuthorityUrl

def userinfoText : Option Text → Text
  | some userinfo => userinfo ++ ['@']
  | none => []

def hostPort (u : AuthorityUrl) : Text := u.host.text ++ portText u.port

def authority (u : AuthorityUrl) : Text := userinfoText u.userinfo ++ u.hostPort

def text (u : AuthorityUrl) : Text := u.scheme ++ (schemeSeparator ++ (u.authority ++ u.rest))

def IsSchemeChar (c : Char) : Prop := c.isAlphanum = true ∨ c = '+' ∨ c = '-' ∨ c = '.'

structure WellFormed (u : AuthorityUrl) : Prop where
  scheme_starts : ∃ c ∈ u.scheme.head?, c.isAlpha = true
  scheme : ∀ c ∈ u.scheme, IsSchemeChar c
  userinfo : ∀ userinfo ∈ u.userinfo, ∀ c ∈ userinfo, endsAuthority c = false
  host : u.host.WellFormed
  port : ∀ port ∈ u.port, ∀ c ∈ port, c.isDigit = true
  rest : ∀ c ∈ u.rest.head?, endsAuthority c = true

end AuthorityUrl

def IsUrl (text : Text) (u : AuthorityUrl) : Prop := u.WellFormed ∧ u.text = text

section Parts

variable {u u' : AuthorityUrl} {host host' : UrlHost} {port port' : Option Text} {c : Char}
  {text : Text}

theorem digit_of_port (h : ∀ p ∈ port, ∀ c ∈ p, c.isDigit = true) (hc : c ∈ portText port) :
    c = ':' ∨ c.isDigit = true := by
  cases port with
  | none => cases hc
  | some p => exact (List.mem_cons.mp hc).imp id (h p rfl c)

theorem inside_of_digit (h : c = ':' ∨ c.isDigit = true) :
    endsAuthority c = false ∧ c ∉ ['@', '[', ']'] := by
  rcases h with rfl | h
  · decide
  · have hcode := Text.isDigit_iff.mp h
    have hne {d : Char} (hd : d.toNat < 0x30 ∨ 0x39 < d.toNat) : c ≠ d := by
      rintro rfl
      omega
    simp only [endsAuthority, Bool.or_eq_false_iff, decide_eq_false_iff_not, List.mem_cons,
      List.not_mem_nil, or_false, not_or]
    exact ⟨⟨⟨hne (by decide), hne (by decide)⟩, hne (by decide)⟩, hne (by decide), hne (by decide),
      hne (by decide)⟩

namespace UrlHost.WellFormed

theorem inside (h : host.WellFormed) (hc : c ∈ host.text) :
    endsAuthority c = false ∧ c ≠ '@' := by
  have hname {c : Char} (h : IsNameChar c) : endsAuthority c = false ∧ c ≠ '@' :=
    ⟨h.1, fun heq => h.2 (by rw [heq]; decide)⟩
  cases h with
  | name _ hchars => exact hname (hchars c hc)
  | literal hchars =>
    simp only [UrlHost.text, List.cons_append, List.mem_cons, List.mem_append, List.not_mem_nil,
      or_false] at hc
    rcases hc with rfl | hc | rfl
    · decide
    · rcases hchars c hc with h | rfl
      · exact hname h
      · decide
    · decide

theorem text_ne_nil (h : host.WellFormed) : host.text ≠ [] := by
  cases h with
  | name hne _ => exact hne
  | literal _ => exact List.cons_ne_nil _ _

theorem head_name {n : Text} (h : (UrlHost.name n).WellFormed) (rest : Text) :
    (n ++ rest).head? ≠ some '[' := by
  cases h with
  | name hne hchars =>
    rw [List.head?_append_of_ne_nil _ hne]
    intro hhead
    exact (hchars '[' (List.mem_of_head? hhead)).2 (by decide)

theorem colon_not_mem {n : Text} (h : (UrlHost.name n).WellFormed) : ':' ∉ n := by
  cases h with
  | name _ hchars => exact fun hmem => (hchars ':' hmem).2 (by decide)

theorem bracket_not_mem {address : Text} (h : (UrlHost.literal address).WellFormed) :
    ']' ∉ address := by
  cases h with
  | literal hchars =>
    intro hmem
    rcases hchars ']' hmem with hname | heq
    · exact hname.2 (by decide)
    · exact absurd heq (by decide)

end UrlHost.WellFormed

theorem portText_injective (h : portText port = portText port') : port = port' := by
  cases port with
  | none =>
    cases port' with
    | none => rfl
    | some p' => cases h
  | some p =>
    cases port' with
    | none => cases h
    | some p' => rw [(List.cons.inj h).2]

theorem hostPort_injective (hhost : host.WellFormed) (hhost' : host'.WellFormed)
    (h : host.text ++ portText port = host'.text ++ portText port') :
    host = host' ∧ port = port' := by
  cases host with
  | name n =>
    cases host' with
    | name n' =>
      obtain ⟨rfl, rfl⟩ := (authority_inj hhost.colon_not_mem hhost'.colon_not_mem).mp h
      exact ⟨rfl, rfl⟩
    | literal address' => exact absurd (congrArg List.head? h) (hhost.head_name _)
  | literal address =>
    cases host' with
    | name n' => exact absurd (congrArg List.head? h).symm (hhost'.head_name _)
    | literal address' =>
      have hcut := Text.cutAt_singleton hhost.bracket_not_mem (portText port)
      have hcut' := Text.cutAt_singleton hhost'.bracket_not_mem (portText port')
      simp only [UrlHost.text, List.cons_append, List.append_assoc, List.nil_append] at h
      rw [(List.cons.inj h).2, hcut'] at hcut
      obtain ⟨rfl, hport⟩ := Prod.mk.inj (Option.some.inj hcut)
      exact ⟨rfl, portText_injective hport.symm⟩

namespace AuthorityUrl.WellFormed

theorem hostPort_inside (h : u.WellFormed) (hc : c ∈ u.hostPort) :
    endsAuthority c = false ∧ c ≠ '@' := by
  rcases List.mem_append.mp hc with hc | hc
  · exact h.host.inside hc
  · have hinside := inside_of_digit (digit_of_port h.port hc)
    exact ⟨hinside.1, fun heq => hinside.2 (by rw [heq]; decide)⟩

theorem splitsAs (h : u.WellFormed) : SplitsAs (u.authority ++ u.rest) u.authority u.rest := by
  refine ⟨rfl, fun c hc => ?_, h.rest⟩
  rcases List.mem_append.mp hc with hc | hc
  · cases huserinfo : u.userinfo with
    | none =>
      rw [huserinfo] at hc
      cases hc
    | some userinfo =>
      rw [huserinfo] at hc
      rcases List.mem_append.mp hc with hc | hc
      · exact h.userinfo userinfo huserinfo c hc
      · obtain rfl := List.mem_singleton.mp hc
        rfl
  · exact (h.hostPort_inside hc).1

theorem colon_not_mem_scheme (h : u.WellFormed) : ':' ∉ u.scheme := by
  intro hmem
  have hchar := h.scheme ':' hmem
  revert hchar
  unfold IsSchemeChar
  decide

theorem cutAt_text (h : u.WellFormed) :
    Text.cutAt schemeSeparator u.text = some (u.scheme, u.authority ++ u.rest) :=
  Text.cutAt_append h.colon_not_mem_scheme _

end AuthorityUrl.WellFormed

theorem userinfo_injective {userinfo userinfo' : Option Text} {t t' : Text} (ht : '@' ∉ t)
    (ht' : '@' ∉ t')
    (h : AuthorityUrl.userinfoText userinfo ++ t = AuthorityUrl.userinfoText userinfo' ++ t') :
    userinfo = userinfo' ∧ t = t' := by
  have hsome (w : Text) {s : Text} (hs : '@' ∉ s) :
      Text.rcutAt '@' (AuthorityUrl.userinfoText (some w) ++ s) = some (w, s) := by
    rw [AuthorityUrl.userinfoText, List.append_assoc]
    exact Text.rcutAt_append hs w
  have hnone {s : Text} (hs : '@' ∉ s) :
      Text.rcutAt '@' (AuthorityUrl.userinfoText none ++ s) = none :=
    Text.rcutAt_of_not_mem hs
  cases userinfo with
  | none =>
    cases userinfo' with
    | none => exact ⟨rfl, h⟩
    | some w' =>
      have hcut := hnone ht
      rw [h, hsome w' ht'] at hcut
      cases hcut
  | some w =>
    cases userinfo' with
    | none =>
      have hcut := hsome w ht
      rw [h, hnone ht'] at hcut
      cases hcut
    | some w' =>
      have hcut := hsome w ht
      rw [h, hsome w' ht'] at hcut
      obtain ⟨rfl, rfl⟩ := Prod.mk.inj (Option.some.inj hcut)
      exact ⟨rfl, rfl⟩

theorem IsUrl.unique (h : IsUrl text u) (h' : IsUrl text u') : u = u' := by
  have hcut := h.1.cutAt_text
  rw [h.2, ← h'.2, h'.1.cutAt_text] at hcut
  obtain ⟨hscheme, hbehind⟩ := Prod.mk.inj (Option.some.inj hcut)
  have hsplit := h.1.splitsAs
  have hsplit' := h'.1.splitsAs
  rw [hbehind] at hsplit'
  have hauthority := hsplit.authorityOf_eq.symm.trans hsplit'.authorityOf_eq
  have hrest := hsplit.restOf_eq.symm.trans hsplit'.restOf_eq
  obtain ⟨huserinfo, hhostPort⟩ := userinfo_injective
    (fun hmem => (h.1.hostPort_inside hmem).2 rfl) (fun hmem => (h'.1.hostPort_inside hmem).2 rfl)
    hauthority
  obtain ⟨hhost, hport⟩ := hostPort_injective h.1.host h'.1.host hhostPort
  cases u
  cases u'
  rw [AuthorityUrl.mk.injEq]
  exact ⟨hscheme.symm, huserinfo, hhost, hport, hrest⟩

end Parts

end AnchorKit
