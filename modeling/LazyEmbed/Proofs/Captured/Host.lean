import LazyEmbed.Captured.Host
import LazyEmbed.Proofs.Text.Lowered
import Mathlib.Logic.Relation

/-!
# Hosts on an allow-list

A value is a host if its lower case is what some line of the list says, once trimmed and in lower
case. Trimming and lower case do not get in each other's way, and nothing is gained by doing either
again, so a host is the answer to itself, and neither the order of the lines nor the case and the
blanks in them matter (`allowedHost?_projects`).
-/

namespace LazyEmbed.Captured

variable {value host allowed varied other line : Text} {lines others : List Text}

inductive Varies : List Text → List Text → Prop
  | permuted {lines others : List Text} (h : lines.Perm others) : Varies lines others
  | repeated {line : Text} {lines : List Text} (h : line ∈ lines) : Varies lines (line :: lines)
  | lowered (line : Text) (lines : List Text) : Varies (line :: lines) (Text.lower line :: lines)
  | padded {front back : Text} (hfront : Text.IsBlanks front) (hback : Text.IsBlanks back)
      (line : Text) (lines : List Text) :
      Varies (line :: lines) ((front ++ (line ++ back)) :: lines)
  | blank {line : Text} (h : Text.IsBlanks line) (lines : List Text) : Varies lines (line :: lines)

def IsListed (lines : List Text) (host : Text) : Prop :=
  host ≠ [] ∧ ∃ line ∈ lines, host = Text.lower (Text.trim line)

theorem isListed_cons : IsListed (line :: lines) host ↔
    host ≠ [] ∧ host = Text.lower (Text.trim line) ∨ IsListed lines host := by
  rw [IsListed, List.exists_mem_cons_iff, and_or_left, IsListed]

theorem IsListed.isTrimmed (h : IsListed lines host) : Text.IsTrimmed host := by
  obtain ⟨-, line, -, rfl⟩ := h
  exact (Text.isTrimmed_trim line).lower

theorem IsListed.lower_eq (h : IsListed lines host) : Text.lower host = host := by
  obtain ⟨-, line, -, rfl⟩ := h
  exact Text.lower_lower _

theorem IsListed.no_lineFeed (h : IsListed (Text.lines allowed) host) : '\n' ∉ host := by
  obtain ⟨-, line, hline, rfl⟩ := h
  intro hmem
  exact Text.not_mem_of_mem_lines hline
    (Text.mem_of_mem_trim (Text.mem_of_mem_lowerAfter (by decide) hmem))

/-- A host is let through exactly when its lower-case form is listed, and the lower-case form is the
answer. -/
theorem allowedHost?_eq_some_iff :
    allowedHost? value allowed = some host ↔ host = Text.lower value ∧
      IsListed (Text.lines allowed) host := by
  have hlisted : (Text.lower value ≠ [] ∧ Text.lower value ∈ hostsOf allowed) ↔
      IsListed (Text.lines allowed) (Text.lower value) := by
    simp only [IsListed, hostsOf, List.mem_map, eq_comm]
  rw [allowedHost?, Option.ite_none_right_eq_some, hlisted, Option.some_inj]
  constructor
  · rintro ⟨h, rfl⟩
    exact ⟨rfl, h⟩
  · rintro ⟨rfl, h⟩
    exact ⟨h, rfl⟩

theorem allowedHost?_self (h : allowedHost? value allowed = some host) :
    allowedHost? host allowed = some host := by
  obtain ⟨-, hlisted⟩ := allowedHost?_eq_some_iff.1 h
  exact allowedHost?_eq_some_iff.2 ⟨hlisted.lower_eq.symm, hlisted⟩

theorem allowedHost?_congr (hvalue : Text.lower other = Text.lower value)
    (hlines : ∀ host, IsListed (Text.lines varied) host ↔ IsListed (Text.lines allowed) host) :
    allowedHost? other varied = allowedHost? value allowed := by
  refine Option.ext fun host => ?_
  rw [allowedHost?_eq_some_iff, allowedHost?_eq_some_iff, hvalue, hlines]

/-! ### What does not matter -/

theorem hostOf_lower (line : Text) :
    Text.lower (Text.trim (Text.lower line)) = Text.lower (Text.trim line) := by
  rw [Text.trim_lower, Text.lower_lower]

/-- A change of the lines the list is indifferent to changes no membership. -/
theorem Varies.isListed_iff (h : Varies lines others) :
    IsListed others host ↔ IsListed lines host := by
  cases h with
  | permuted h => simp only [IsListed, h.mem_iff]
  | @repeated line _ h =>
    rw [isListed_cons]
    exact or_iff_right_of_imp fun hline => ⟨hline.1, line, h, hline.2⟩
  | lowered line lines => rw [isListed_cons, isListed_cons, hostOf_lower]
  | padded hfront hback line lines =>
    rw [isListed_cons, isListed_cons, Text.trim_blanks_append hfront, Text.trim_append_blanks hback]
  | blank h lines =>
    rw [isListed_cons, Text.trim_eq_nil_iff.2 h]
    exact or_iff_right fun hline => hline.1 hline.2

theorem isListed_iff_of_eqvGen (h : Relation.EqvGen Varies lines others) :
    ∀ host, IsListed lines host ↔ IsListed others host := by
  induction h with
  | rel lines others h => exact fun host => h.isListed_iff.symm
  | refl lines => exact fun host => Iff.rfl
  | symm lines others _ ih => exact fun host => (ih host).symm
  | trans first second third _ _ ihfirst ihsecond =>
    exact fun host => (ihfirst host).trans (ihsecond host)

theorem isListed_map_lower : IsListed (lines.map Text.lower) host ↔ IsListed lines host := by
  simp only [IsListed, List.mem_map, exists_exists_and_eq_and, hostOf_lower]

/-- The answer is the lower case of the value, if it is also the lower case of a trimmed line. Such
a host is the answer to itself; and the answer is the same for values of the same lower case, and
for lists with the same lines up to their order, repetition, case, and blanks. -/
theorem allowedHost?_projects (value allowed : Text) :
    (∀ host, allowedHost? value allowed = some host ↔
      host = Text.lower value ∧ host ≠ [] ∧
        ∃ line ∈ Text.lines allowed, host = Text.lower (Text.trim line)) ∧
    (∀ host, allowedHost? value allowed = some host →
      '\n' ∉ host ∧ (∀ c ∈ host.head?, Text.isBlank c = false) ∧
        (∀ c ∈ host.getLast?, Text.isBlank c = false) ∧
        allowedHost? host allowed = some host) ∧
    (∀ other, Text.lower other = Text.lower value →
      allowedHost? other allowed = allowedHost? value allowed) ∧
    allowedHost? value (Text.lower allowed) = allowedHost? value allowed ∧
    ∀ varied, Relation.EqvGen Varies (Text.lines allowed) (Text.lines varied) →
      allowedHost? value varied = allowedHost? value allowed := by
  refine ⟨fun host => allowedHost?_eq_some_iff, fun host hhost => ?_, fun other hother => ?_, ?_,
    fun varied hvaried => ?_⟩
  · obtain ⟨-, hlisted⟩ := allowedHost?_eq_some_iff.1 hhost
    exact ⟨hlisted.no_lineFeed, hlisted.isTrimmed.head, hlisted.isTrimmed.last,
      allowedHost?_self hhost⟩
  · exact allowedHost?_congr hother fun host => Iff.rfl
  · refine allowedHost?_congr rfl fun host => ?_
    rw [Text.lines_lower, isListed_map_lower]
  · exact allowedHost?_congr rfl fun host => (isListed_iff_of_eqvGen hvaried host).symm

theorem allowedHost?_mastodon :
    allowedHost? "Mastodon.Social".toList "x.org\nMastodon.Social".toList =
      some "mastodon.social".toList ∧
    allowedHost? "mastodon.social".toList "x.org\nMastodon.Social".toList =
      some "mastodon.social".toList ∧
    Relation.EqvGen Varies (Text.lines "x.org\nMastodon.Social".toList)
      (Text.lines "\t\n mastodon.social \r\nx.org".toList) ∧
    allowedHost? "Mastodon.Social".toList "\t\n mastodon.social \r\nx.org".toList =
      some "mastodon.social".toList := by
  have hhost : allowedHost? "Mastodon.Social".toList "x.org\nMastodon.Social".toList =
      some "mastodon.social".toList := by
    repeat rw [String.toList_ofList]
    decide +kernel
  have hlower : Text.lower "Mastodon.Social".toList = "mastodon.social".toList := by
    rw [String.toList_ofList, String.toList_ofList]
    decide +kernel
  have hlines : Text.lines "x.org\nMastodon.Social".toList = ["x.org".toList,
      "Mastodon.Social".toList] ∧ Text.lines "\t\n mastodon.social \r\nx.org".toList = ["\t".toList,
        " mastodon.social \r".toList, "x.org".toList] := by
    repeat rw [String.toList_ofList]
    decide +kernel
  have hpermuted : Varies ["x.org".toList, "Mastodon.Social".toList] ["Mastodon.Social".toList,
      "x.org".toList] :=
    .permuted (.swap _ _ _)
  have hlowered : Varies ["Mastodon.Social".toList, "x.org".toList] ["mastodon.social".toList,
      "x.org".toList] := by
    have h := Varies.lowered "Mastodon.Social".toList ["x.org".toList]
    rwa [hlower] at h
  have hpadded : Varies ["mastodon.social".toList, "x.org".toList] [" mastodon.social \r".toList,
      "x.org".toList] :=
    .padded (show Text.IsBlanks " " by decide) (show Text.IsBlanks " \r" by decide) _ _
  have hblank : Varies [" mastodon.social \r".toList, "x.org".toList]
      ["\t".toList, " mastodon.social \r".toList, "x.org".toList] :=
    .blank (by decide) _
  have hvaried : Relation.EqvGen Varies (Text.lines "x.org\nMastodon.Social".toList)
      (Text.lines "\t\n mastodon.social \r\nx.org".toList) := by
    rw [hlines.1, hlines.2]
    exact .trans _ _ _ (.rel _ _ hpermuted) (.trans _ _ _ (.rel _ _ hlowered)
      (.trans _ _ _ (.rel _ _ hpadded) (.rel _ _ hblank)))
  obtain ⟨-, hanswer, -, -, hsame⟩ :=
    allowedHost?_projects "Mastodon.Social".toList "x.org\nMastodon.Social".toList
  exact ⟨hhost, (hanswer _ hhost).2.2.2, hvaried, (hsame _ hvaried).trans hhost⟩

end LazyEmbed.Captured
