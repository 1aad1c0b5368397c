import LazyEmbed.Proofs.Page.Repeated
import LazyEmbed.Proofs.Placeholder.ReadBack
import LazyEmbed.Proofs.Text.Yielding

/-!
# Deferring with nobody to ask

With neither a store nor a service the time and the random numbers do not matter, and a page that
was deferred so is left as it is when it is deferred so again. It has no carriage returns if it had
none before: values are written with the characters that they have and others that are no carriage
returns, and so is the script.
-/

namespace LazyEmbed

/-! ### Carriage returns -/

theorem Text.return_not_mem_flatMap {write : Char → Text} {text : Text}
    (hwrite : ∀ c, '\r' ∈ write c → c = '\r') (h : '\r' ∉ text) : '\r' ∉ text.flatMap write := by
  intro hmem
  obtain ⟨c, hc, hwritten⟩ := List.mem_flatMap.1 hmem
  exact h (hwrite c hwritten ▸ hc)

theorem Html.return_not_mem_forDoubleQuotes {text : Text} (h : '\r' ∉ text) :
    '\r' ∉ Html.forDoubleQuotes text := by
  have hreferences : '\r' ∉ ("&amp;" : Text) ∧ '\r' ∉ ("&lt;" : Text) ∧ '\r' ∉ ("&gt;" : Text) ∧
    '\r' ∉ ("&quot;" : Text) := by decide
  refine Text.return_not_mem_flatMap (fun c hmem => ?_) h
  split at hmem
  · exact absurd hmem hreferences.1
  · exact absurd hmem hreferences.2.1
  · exact absurd hmem hreferences.2.2.1
  · exact absurd hmem hreferences.2.2.2
  · exact (List.mem_singleton.1 hmem).symm

theorem Payload.return_not_mem_forSingleQuotes {text : Text} (h : '\r' ∉ text) :
    '\r' ∉ forSingleQuotes text := by
  have hreferences : '\r' ∉ ("&amp;" : Text) ∧ '\r' ∉ ("&lt;" : Text) ∧ '\r' ∉ ("&gt;" : Text) ∧
    '\r' ∉ ("&#39;" : Text) := by decide
  refine Text.return_not_mem_flatMap (fun c hmem => ?_) (Pattern.not_mem_replace h fun _ _ =>
    hreferences.1)
  split at hmem
  · exact absurd hmem hreferences.2.1
  · exact absurd hmem hreferences.2.2.1
  · exact absurd hmem hreferences.2.2.2
  · exact (List.mem_singleton.1 hmem).symm

namespace Placeholder

variable {attributes : Attributes} {element text : Text}

def Returnless (name value : Text) : Prop := '\r' ∉ name ∧ '\r' ∉ value

theorem return_not_mem_trim (h : '\r' ∉ text) : '\r' ∉ Text.trim text :=
  fun hmem => h ((Text.trim_isInfix text).subset hmem)

theorem return_not_mem_withoutBackground {style : Text} (h : '\r' ∉ style) :
    '\r' ∉ ClickToLoad.withoutBackground style := by
  refine Pattern.not_mem_replace h fun part hpart => ?_
  obtain ⟨behind, rest, hbehind, hrun⟩ := Pattern.exists_run_of_mem_hits hpart
  obtain ⟨value, left, rfl, -, -⟩ | ⟨word, rfl, rfl, -, -⟩ :=
    ClickToLoad.StylePart.cases_of_run hrun
  · exact List.not_mem_nil
  · exact fun hmem => h (hbehind.subset (List.mem_append_left _ hmem))

theorem returnless_extractBackground (h : attributes.All Returnless) :
    (ClickToLoad.extractBackground attributes).All Returnless := by
  have hnames : ∀ name ∈ attributeNames, '\r' ∉ name := fun name hname =>
    (isName_attributeNames name hname).not_mem rfl
  have hbackground : '\r' ∉ ("background:" : Text) := by decide
  unfold ClickToLoad.extractBackground
  split
  · next style _ hget =>
    split
    · next value hvalue =>
      have hstyle := (h.get? hget).2
      have hfound : '\r' ∉ value := fun hmem =>
          hstyle ((ClickToLoad.isInfix_of_background? hvalue).subset hmem)
      have hmoved :
          (attributes.put ClickToLoad.backgroundName ("background:" ++ Text.trim value)).All
            Returnless := by
        exact h.put ⟨hnames _ (by simp [attributeNames]),
          List.not_mem_append hbackground (return_not_mem_trim hfound)⟩
      simp only
      split
      · exact hmoved.erase _
      · exact hmoved.put ⟨hnames _ (by simp [attributeNames]),
          return_not_mem_trim (return_not_mem_withoutBackground hstyle)⟩
    · exact h
  · exact h

theorem returnless_attributesOf (h : '\r' ∉ element) : (attributesOf element).All Returnless := by
  have hsource : '\r' ∉ ("src" : Text) := by decide
  have hapart : (ClickToLoad.setApart (Attributes.ofElement element)).All Returnless := by
    refine returnless_extractBackground
      (all_promoteSource (all_ofElement fun name value hname hvalue => ?_) ?_)
    · exact ⟨fun hmem => h (hname.subset hmem), fun hmem => h (hvalue.subset hmem)⟩
    · exact fun source hold => ⟨hsource, hold.2⟩
  unfold attributesOf
  simp only
  split
  · exact hapart.erase _
  · exact hapart

/-- A placeholder holds no carriage return its attributes did not hold. -/
theorem return_not_mem_render (h : attributes.All Returnless) : '\r' ∉ render attributes := by
  have hnames : ∀ name ∈ attributeNames, '\r' ∉ name := fun name hname =>
    (isName_attributeNames name hname).not_mem rfl
  have hfixed : '\r' ∉ ("<span" : Text) ∧ '\r' ∉ (" " : Text) ∧ '\r' ∉ ("=\"" : Text) ∧
      '\r' ∉ ("\"" : Text) ∧ '\r' ∉ Payload.attributeName ∧ '\r' ∉ ("='" : Text) ∧
      '\r' ∉ ("'></span>" : Text) := by decide
  obtain ⟨hspan, hblank, hquote, hlast, hpayload, hsingle, hclosing⟩ := hfixed
  have hattributes : '\r' ∉ renderAttributes attributes := by
    intro hmem
    obtain ⟨name, hname, hwritten⟩ := List.mem_flatMap.1 hmem
    split at hwritten
    · next value hget =>
      have hvalue := Html.return_not_mem_forDoubleQuotes (h.get? hget).2
      have hname := List.not_mem_append (List.not_mem_append hblank (hnames name hname)) hquote
      exact List.not_mem_append (List.not_mem_append hname hvalue) hlast hwritten
    · exact absurd hwritten List.not_mem_nil
  have hitems : '\r' ∉ Payload.render attributes := by
    refine Payload.return_not_mem_forSingleQuotes
      (Json.not_mem_quoteList (by decide) fun text htext => ?_)
    obtain ⟨entry, hentry, htext⟩ := List.mem_flatMap.1 htext
    obtain ⟨hname, hvalue⟩ := h entry (List.mem_filter.1 hentry).1
    simp only [List.mem_cons, List.not_mem_nil, or_false] at htext
    rcases htext with rfl | rfl
    · exact hname
    · exact hvalue
  have hfront := List.not_mem_append (List.not_mem_append hspan hattributes) hblank
  have hopened := List.not_mem_append (List.not_mem_append hfront hpayload) hsingle
  unfold render
  exact List.not_mem_append (List.not_mem_append hopened hitems) hclosing

end Placeholder

namespace Page

open Title Placeholder

variable {page : Text} {host : Host}

theorem return_not_mem_append {first second : String} (hfirst : '\r' ∉ first.toList)
    (hsecond : '\r' ∉ second.toList) : '\r' ∉ (first ++ second).toList := by
  rw [String.toList_append, List.mem_append, not_or]
  exact ⟨hfirst, hsecond⟩

theorem return_not_mem_of_eq {source : String} {text : Text} (h : source = String.ofList text)
    (htext : '\r' ∉ text) : '\r' ∉ source.toList := by
  rwa [h, String.toList_ofList]

theorem return_not_mem_loader : '\r' ∉ loader := by
  unfold loader loaderSource
  iterate 39 refine return_not_mem_append ?_ (return_not_mem_of_eq rfl (by decide))
  exact return_not_mem_of_eq rfl (by decide)

theorem return_not_mem_loaderElement : '\r' ∉ loaderElement := by
  have htags : '\r' ∉ ("<script>" : Text) ∧ '\r' ∉ ("</script>" : Text) := by decide
  unfold loaderElement
  exact List.not_mem_append (List.not_mem_append htags.1 return_not_mem_loader) htags.2

/-- Deferring brings no carriage return into a page. -/
theorem return_not_mem_deferred (h : '\r' ∉ page) : '\r' ∉ deferred page := by
  have hframes : '\r' ∉ replaceFrames page := by
    refine Pattern.not_mem_replace h fun frame hframe => ?_
    obtain ⟨behind, rest, hbehind, hrun⟩ := Pattern.exists_run_of_mem_hits hframe
    have hparts : '\r' ∉ frame.wrapper ++ (frame.element ++ rest) := by
      rw [← text_of_reads (run_eq_some_iff.1 hrun)]
      exact fun hmem => h (hbehind.subset hmem)
    simp only [List.mem_append, not_or] at hparts
    unfold replaceFrame
    exact List.not_mem_append hparts.1 (return_not_mem_render (returnless_attributesOf hparts.2.1))
  unfold deferred
  refine List.not_mem_append hframes ?_
  split
  · exact List.not_mem_nil
  · exact return_not_mem_loaderElement

/-! ### Nobody to ask -/

def IsAlone (host : Host) : Prop := host.store = none ∧ host.service = none

theorem page_deferWith_alone (h : IsAlone host) (numbers : List Int) (page : Text) :
    (deferWith host numbers page).page = defer page := by
  obtain ⟨store, service, now⟩ := host
  obtain ⟨rfl, rfl⟩ := h
  unfold defer deferWith
  split
  · cases (frames page).isEmpty
    · rfl
    · rfl
  · rfl

/-- What neither speaks of titles nor gives a background behind a hyphen stays as it is once it was
deferred. -/
theorem defer_defer (htitle : ¬attributeName <:+: page)
    (hbackground : ¬("-background:" : Text) <:+: page) : defer (defer page) = defer page := by
  by_cases hmarker : Text.contains marker page = true
  · have huntitled := untitled_deferred htitle hbackground
    have hagain :=
      (deferWith_retitled huntitled (Text.contains_iff.1 hmarker) .empty ⟨none, none, 0⟩ []).1
    rw [retitle_empty huntitled] at hagain
    rwa [defer_marked hmarker huntitled]
  · have hsame : defer page = page := page_deferWith_unmarked hmarker _ _
    rw [hsame, hsame]

theorem return_not_mem_defer (htitle : ¬attributeName <:+: page)
    (hbackground : ¬("-background:" : Text) <:+: page) (h : '\r' ∉ page) : '\r' ∉ defer page := by
  by_cases hmarker : Text.contains marker page = true
  · rw [defer_marked hmarker (untitled_deferred htitle hbackground)]
    exact return_not_mem_deferred h
  · have hsame : defer page = page := page_deferWith_unmarked hmarker _ _
    rwa [hsame]

end Page

end LazyEmbed
