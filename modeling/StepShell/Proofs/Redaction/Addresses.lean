import StepShell.Redaction
import StepShell.Text.Split

/-! Addresses in a log. Behind the scheme, all that stands in front of the first at sign is taken
for a name and a password if there is a colon in it. So a password is hidden up to its first at sign
only, and a path with an at sign is hidden in part where a port stands before it. -/

namespace StepShell

namespace Redaction

variable {redaction : Redaction} {scheme user place rest : String}

section Cutting

theorem takeBytes_prefix (limit : Nat) (text : List Char) : takeBytes limit text <+: text := by
  induction text generalizing limit with
  | nil => exact List.prefix_rfl
  | cons c text ih =>
    rw [takeBytes]
    split
    · exact List.cons_prefix_cons.mpr ⟨rfl, ih _⟩
    · exact List.nil_prefix

/-- What stands behind a text that is cut short. -/
def omission (bytes : Nat) : String :=
  s!"...[truncated {bytes} bytes]"

theorem at_not_mem_omission (bytes : Nat) : '@' ∉ (omission bytes).toList := by
  have digits : '@' ∉ (toString bytes).toList := fun member => by
    rw [Nat.toString_eq_ofList_toDigits, String.toList_ofList] at member
    have digit : '@'.isDigit := Nat.isDigit_of_mem_toDigits (by decide) (by decide) member
    cases digit
  have before : '@' ∉ "...[truncated ".toList := by decide
  have after : '@' ∉ " bytes]".toList := by decide
  show '@' ∉ ("...[truncated " ++ toString bytes ++ " bytes]").toList
  rw [String.toList_append, String.toList_append, List.mem_append, List.mem_append]
  exact fun member => member.elim (fun member => member.elim before digits) after

theorem truncate_cases (redaction : Redaction) (text : String) :
    redaction.truncate text = text ∨
      ∃ kept bytes, kept <+: text.toList ∧
        (redaction.truncate text).toList = kept ++ (omission bytes).toList := by
  unfold truncate
  split
  · exact .inl rfl
  · let kept := takeBytes redaction.limit text.toList
    refine .inr ⟨kept, text.utf8ByteSize - (String.ofList kept).utf8ByteSize,
      takeBytes_prefix redaction.limit text.toList, ?_⟩
    rw [String.toList_append, String.toList_ofList]
    rfl

end Cutting

section Splitting

theorem splitAt?_single (mark : Char) (text : List Char) :
    splitAt? [mark] text = Text.cutOnce mark text := by
  induction text with
  | nil => rfl
  | cons c text ih =>
    rw [splitAt?, Text.cutOnce, ih]
    by_cases same : c = mark
    · subst same
      simp
    · simp [same, Ne.symm same]

/-- The colon and the slashes cannot begin in a scheme and end behind it, so the first ones are
those behind the scheme. -/
theorem splitAt?_scheme {scheme : List Char} (plain : ¬"://".toList <:+: scheme)
    (rest : List Char) :
    splitAt? "://".toList (scheme ++ ("://".toList ++ rest)) = some (scheme, rest) := by
  induction scheme with
  | nil => rfl
  | cons c scheme ih =>
    have later : ¬"://".toList <:+: scheme := fun within =>
      plain (within.trans (List.suffix_cons c scheme).isInfix)
    have other : ¬"://".toList.isPrefixOf (c :: (scheme ++ ("://".toList ++ rest))) := by
      intro first
      have first := List.isPrefixOf_iff_prefix.mp first
      match scheme, plain with
      | [], _ | [_], _ => simp_all
      | second :: third :: scheme, plain =>
        refine plain (List.IsPrefix.isInfix ?_)
        simpa using first
    rw [List.cons_append, splitAt?, if_neg other, ih later]
    rfl

theorem splitAt?_eq_none {mark text : List Char} (absent : ¬mark <:+: text) :
    splitAt? mark text = none := by
  induction text with
  | nil =>
    have some : mark.isEmpty = false := by
      cases mark with
      | nil => exact absurd List.infix_rfl absent
      | cons => rfl
    simp [splitAt?, some]
  | cons c text ih =>
    have other : ¬mark.isPrefixOf (c :: text) := fun first =>
      absent (List.isPrefixOf_iff_prefix.mp first).isInfix
    have later : ¬mark <:+: text := fun within =>
      absent (within.trans (List.suffix_cons c text).isInfix)
    rw [splitAt?, if_neg other, ih later]
    rfl

end Splitting

/-- Whether what stands behind a scheme seems to name a user: there is a colon in front of the first
at sign. -/
def SeemsNamed (rest : String) : Prop :=
  ∃ user place : String, rest = user ++ "@" ++ place ∧ '@' ∉ user.toList ∧ ':' ∈ user.toList

section Telling

theorem toList_schemed (scheme rest : String) :
    (scheme ++ "://" ++ rest).toList = scheme.toList ++ ("://".toList ++ rest.toList) := by
  rw [String.toList_append, String.toList_append, List.append_assoc]

theorem cutOnce_at (free : '@' ∉ user.toList) (place : String) :
    Text.cutOnce '@' (user ++ "@" ++ place).toList = some (user.toList, place.toList) := by
  have whole : (user ++ "@" ++ place).toList = user.toList ++ '@' :: place.toList := by
    rw [String.toList_append, String.toList_append, List.append_assoc]
    rfl
  rw [whole]
  exact Text.cutOnce_of_none _ (Text.cutOnce_eq_none free)

theorem address_named (hides : redaction.hides) (plain : ¬"://".toList <:+: scheme.toList)
    (free : '@' ∉ user.toList) (colon : ':' ∈ user.toList) (place : String) :
    redaction.address (scheme ++ "://" ++ (user ++ "@" ++ place)) =
      scheme ++ "://" ++ mark ++ "@" ++ place := by
  have hidden : user.toList.contains ':' := List.contains_iff_mem.mpr colon
  simp only [address, toList_schemed, splitAt?_scheme plain, splitAt?_single, cutOnce_at free,
    hides, hidden, Option.bind_eq_bind, Option.bind_some, if_pos, String.ofList_toList]

theorem address_unnamed (plain : ¬"://".toList <:+: scheme.toList) (unnamed : ¬SeemsNamed rest) :
    redaction.address (scheme ++ "://" ++ rest) = redaction.truncate (scheme ++ "://" ++ rest) := by
  unfold address
  rw [toList_schemed, splitAt?_scheme plain]
  simp only [Option.bind_eq_bind, Option.bind_some, splitAt?_single]
  cases cut : Text.cutOnce '@' rest.toList with
  | none => simp
  | some halves =>
    obtain ⟨whole, free⟩ := Text.eq_append_of_cutOnce cut
    have colonless : ':' ∉ halves.1 := fun colon => by
      refine unnamed ⟨String.ofList halves.1, String.ofList halves.2, ?_, by simpa, by simpa⟩
      rw [← String.toList_inj, whole]
      simp
    simp [colonless]

theorem address_schemeless {text : String} (schemeless : ¬"://".toList <:+: text.toList) :
    redaction.address text = redaction.truncate text := by
  unfold address
  rw [splitAt?_eq_none schemeless]
  simp

/-- Two texts are cut alike at their first at signs. -/
theorem eq_of_before_at {before after before' after' : List Char}
    (same : before ++ '@' :: after = before' ++ '@' :: after') (free : '@' ∉ before)
    (free' : '@' ∉ before') : before = before' := by
  have cut := Text.cutOnce_of_none after (Text.cutOnce_eq_none free)
  rw [same, Text.cutOnce_of_none after' (Text.cutOnce_eq_none free')] at cut
  exact (Prod.mk.inj (Option.some.inj cut)).1.symm

/-- No text that is told passes for one with its user hidden. What is left out of it is told without
an at sign, so the mark would stand in the text itself, where the user stands. -/
theorem truncate_ne_named (free : '@' ∉ user.toList) (colon : ':' ∈ user.toList) :
    redaction.truncate (scheme ++ "://" ++ (user ++ "@" ++ place)) ≠
      scheme ++ "://" ++ mark ++ "@" ++ place := by
  intro told
  let front := scheme.toList ++ "://".toList
  have text : (scheme ++ "://" ++ (user ++ "@" ++ place)).toList =
      front ++ (user.toList ++ '@' :: place.toList) := by
    simp [front]
  have hidden : (scheme ++ "://" ++ mark ++ "@" ++ place).toList =
      front ++ mark.toList ++ '@' :: place.toList := by
    simp [front]
  have elsewhere : ∀ further,
      mark.toList ++ '@' :: further ≠ user.toList ++ '@' :: place.toList := by
    intro further same
    have named : mark.toList = user.toList := eq_of_before_at same (by decide) free
    exact absurd (named ▸ colon) (by decide)
  obtain uncut | ⟨kept, bytes, ⟨left, start⟩, cut⟩ :=
    truncate_cases redaction (scheme ++ "://" ++ (user ++ "@" ++ place))
  · rw [told, ← String.toList_inj, text, hidden, List.append_assoc, List.append_cancel_left_eq]
      at uncut
    exact elsewhere _ uncut
  · rw [told, hidden] at cut
    rw [text] at start
    obtain ⟨further, whole, behind⟩ | ⟨further, -, omitted⟩ := List.append_eq_append_iff.mp cut
    · cases further with
      | nil =>
        have omitted : '@' :: place.toList = (omission bytes).toList := behind
        exact at_not_mem_omission bytes (omitted ▸ List.mem_cons_self)
      | cons c further =>
        obtain ⟨rfl, -⟩ := List.cons.inj behind
        rw [whole, List.append_assoc, List.append_assoc, List.append_cancel_left_eq] at start
        exact elsewhere _ (by simpa using start)
    · have at_mem : '@' ∈ (omission bytes).toList :=
        omitted ▸ List.mem_append_right _ List.mem_cons_self
      exact at_not_mem_omission bytes at_mem

theorem address_eq_truncate_iff (hides : redaction.hides)
    (plain : ¬"://".toList <:+: scheme.toList) :
    redaction.address (scheme ++ "://" ++ rest) = redaction.truncate (scheme ++ "://" ++ rest) ↔
      ¬SeemsNamed rest where
  mp told := by
    rintro ⟨user, place, rfl, free, colon⟩
    rw [address_named hides plain free colon] at told
    exact truncate_ne_named free colon told.symm
  mpr unnamed := address_unnamed plain unnamed

end Telling

end Redaction

/-- The name and the password of a user as an address gives them. A name has no colon and no at
sign; a password has what it will. -/
structure Credentials where
  user : String
  password : String
  colonless : ':' ∉ user.toList
  free : '@' ∉ user.toList

namespace Credentials

variable {redaction : Redaction} {scheme : String}

def url (credentials : Credentials) (scheme place : String) : String :=
  scheme ++ "://" ++ (credentials.user ++ ":" ++ credentials.password ++ "@" ++ place)

/-- The part of a password that is told: what is behind its first at sign, with the at sign that
ends it. -/
def spilled (credentials : Credentials) : String :=
  match Text.splitOnce '@' credentials.password with
  | some (_, tail) => tail ++ "@"
  | none => ""

theorem spilled_of_free {credentials : Credentials} (free : '@' ∉ credentials.password.toList) :
    credentials.spilled = "" := by
  rw [spilled, Text.splitOnce, Text.cutOnce_eq_none free]
  rfl

theorem spilled_of_at {credentials : Credentials} {head tail : String}
    (whole : credentials.password = head ++ "@" ++ tail) (free : '@' ∉ head.toList) :
    credentials.spilled = tail ++ "@" := by
  have cut : Text.splitOnce '@' credentials.password = some (head, tail) :=
    Text.splitOnce_eq (by rw [whole]; simp) free
  rw [spilled, cut]

/-- A password has no at sign or ends its hidden part at the first one. -/
theorem password_cases (credentials : Credentials) :
    '@' ∉ credentials.password.toList ∨
      ∃ head tail : String, credentials.password = head ++ "@" ++ tail ∧ '@' ∉ head.toList := by
  by_cases member : '@' ∈ credentials.password.toList
  · obtain ⟨head, tail, whole, free⟩ := List.eq_append_cons_of_mem member
    refine .inr ⟨String.ofList head, String.ofList tail, ?_, by simpa⟩
    rw [← String.toList_inj, whole]
    simp
  · exact .inl member

theorem spilled_eq_empty_iff {credentials : Credentials} :
    credentials.spilled = "" ↔ '@' ∉ credentials.password.toList := by
  refine ⟨fun empty => ?_, spilled_of_free⟩
  obtain free | ⟨head, tail, whole, free⟩ := credentials.password_cases
  · exact free
  · rw [spilled_of_at whole free] at empty
    exact absurd (congrArg String.length empty) (by simp)

/-- The scheme and the place are told as they are, and of the user just what is spilled. -/
theorem address_url (hides : redaction.hides) (plain : ¬"://".toList <:+: scheme.toList)
    (credentials : Credentials) (place : String) :
    redaction.address (credentials.url scheme place) =
      scheme ++ "://" ++ Redaction.mark ++ "@" ++ (credentials.spilled ++ place) := by
  have free := credentials.free
  unfold url
  obtain whole | ⟨head, tail, whole, hidden⟩ := credentials.password_cases
  · rw [spilled_of_free whole, String.empty_append,
      Redaction.address_named hides plain (by simp [free, whole]) (by simp)]
  · have user : credentials.user ++ ":" ++ credentials.password ++ "@" ++ place =
        credentials.user ++ ":" ++ head ++ "@" ++ (tail ++ "@" ++ place) := by
      simp only [whole, String.append_assoc]
    rw [spilled_of_at whole hidden, user,
      Redaction.address_named hides plain (by simp [free, hidden]) (by simp)]

/-- What a log that gives no user away has to do with two addresses that differ in the user only. -/
structure Concealed (redaction : Redaction) (scheme place : String) (first second : Credentials) :
    Prop where
  same : redaction.address (first.url scheme place) = redaction.address (second.url scheme place)
  whole : ∃ middle, redaction.address (first.url scheme place) = scheme ++ "://" ++ middle ++ place

theorem concealed_iff (hides : redaction.hides) (plain : ¬"://".toList <:+: scheme.toList)
    {first second : Credentials} {place : String} :
    Concealed redaction scheme place first second ↔ first.spilled = second.spilled where
  mp concealed := by
    have same := concealed.same
    rw [address_url hides plain, address_url hides plain, String.append_right_inj] at same
    exact String.append_left_inj _ |>.mp same
  mpr alike := {
    same := by rw [address_url hides plain, address_url hides plain, alike]
    whole := ⟨Redaction.mark ++ "@" ++ first.spilled, by
      rw [address_url hides plain]
      simp only [String.append_assoc]⟩ }

/-- Beside the scheme and the place there is the mark only. -/
theorem address_url_hidden_iff (hides : redaction.hides) (plain : ¬"://".toList <:+: scheme.toList)
    {credentials : Credentials} {place : String} :
    redaction.address (credentials.url scheme place) =
        scheme ++ "://" ++ Redaction.mark ++ "@" ++ place ↔
      '@' ∉ credentials.password.toList := by
  rw [address_url hides plain, String.append_right_inj, ← spilled_eq_empty_iff]
  constructor
  · intro alike
    exact (String.append_left_inj place).mp (alike.trans String.empty_append.symm)
  · intro empty
    rw [empty, String.empty_append]

end Credentials

namespace Redaction

variable {redaction : Redaction} {scheme : String}

/-- The part of an address in front of its path. -/
def authority (rest : String) : String :=
  String.ofList (rest.toList.takeWhile fun c => c ≠ '/' && c ≠ '?' && c ≠ '#')

theorem addresses_concealed_iff (hides : redaction.hides)
    (plain : ¬"://".toList <:+: scheme.toList) :
    (∀ (first second : Credentials) (place : String),
      (Credentials.Concealed redaction scheme place first second ↔
        first.spilled = second.spilled) ∧
      (redaction.address (first.url scheme place) = scheme ++ "://" ++ mark ++ "@" ++ place ↔
        '@' ∉ first.password.toList)) ∧
      (∀ rest, redaction.address (scheme ++ "://" ++ rest) =
        redaction.truncate (scheme ++ "://" ++ rest) ↔ ¬SeemsNamed rest) ∧
      ∀ text : String, ¬"://".toList <:+: text.toList →
        redaction.address text = redaction.truncate text :=
  ⟨fun _ _ _ =>
      ⟨Credentials.concealed_iff hides plain, Credentials.address_url_hidden_iff hides plain⟩,
    fun _ => address_eq_truncate_iff hides plain, fun _ => address_schemeless⟩

theorem addresses_concealed_iff_ftp :
    (∀ (first second : Credentials) (place : String),
      (Credentials.Concealed standard "ftp" place first second ↔
        first.spilled = second.spilled) ∧
      (standard.address (first.url "ftp" place) = "ftp" ++ "://" ++ mark ++ "@" ++ place ↔
        '@' ∉ first.password.toList)) ∧
      (∀ rest, standard.address ("ftp" ++ "://" ++ rest) =
        standard.truncate ("ftp" ++ "://" ++ rest) ↔ ¬SeemsNamed rest) ∧
      ∀ text : String, ¬"://".toList <:+: text.toList →
        standard.address text = standard.truncate text :=
  @addresses_concealed_iff standard "ftp" rfl (by decide)

/-- The rest of a password that has an at sign in it is told, and an at sign in a path is taken for
the end of a password where a port stands before it. -/
theorem password_spilled :
    ¬Credentials.Concealed standard "http" "host/x" ⟨"user", "p@ss", by decide, by decide⟩
        ⟨"user", "q", by decide, by decide⟩ ∧
      '@' ∉ (authority "host:80/a@b").toList ∧
      standard.address "http://host:80/a@b" ≠ standard.truncate "http://host:80/a@b" := by
  refine ⟨fun concealed => absurd concealed.same (by decide +kernel), by decide, by decide +kernel⟩

end Redaction

end StepShell
