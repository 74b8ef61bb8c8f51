import LivePages.Deploy.Proxy
import LivePages.Proofs.Site.Records

namespace LivePages

theorem BuildStep.proper_url (x : BuildStep) : x.url.Proper := by
  cases x with
  | text url html => exact PageUrl.proper_ofText url
  | tree url d => exact PageUrl.proper_ofText url

namespace SiteBuild

/-- A room belongs to an accepted page with widgets, under the page's address. -/
theorem mem_rooms_after (s : Settings) (calls : List BuildStep) (url : String) :
    url ∈ ((start s).after calls).plan.rooms.keys ↔
      ∃ x ∈ (start s).accepted calls, ∃ page, x.document.compile x.url s = .ok page ∧
        page.isInteractive ∧ page.url.text = url := by
  obtain ⟨pages, hf, h⟩ := (records_start s).after calls
  rw [List.nil_append] at h
  rw [h.rooms]
  constructor
  · rintro ⟨page, hp, hi, hu⟩
    obtain ⟨x, hx, hc⟩ := exists_of_forall₂ hf hp
    exact ⟨x, hx, page, hc, hi, hu⟩
  · rintro ⟨x, hx, page, hc, hi, hu⟩
    obtain ⟨page', hp, hc'⟩ := exists_of_forall₂ hf.flip hx
    cases Except.ok.inj (hc.symm.trans hc')
    exact ⟨page, hp, hi, hu⟩

/-- What is read from the name of a room is the address of its page. -/
theorem exists_proper_of_room {s : Settings} {calls : List BuildStep} {url : String}
    (h : url ∈ ((start s).after calls).plan.rooms.keys) :
    ∃ u : PageUrl, u.Proper ∧ u.text = url ∧ PageUrl.ofText url = u := by
  obtain ⟨x, -, page, hc, -, rfl⟩ := (mem_rooms_after s calls url).mp h
  have proper : page.url.Proper := Document.url_compile hc ▸ x.proper_url
  exact ⟨page.url, proper, rfl, proper.ofText_text⟩

/-- No two rooms are reached in one place. -/
theorem nodup_sockets (s : Settings) (calls : List BuildStep) :
    ((start s).after calls).plan.sockets.Nodup := by
  refine List.Nodup.map_on (fun a ha b hb h => ?_) (TextMap.nodup_keys _)
  obtain ⟨u, hu, rfl, eu⟩ := exists_proper_of_room ha
  obtain ⟨v, hv, rfl, ev⟩ := exists_proper_of_room hb
  rw [eu, ev] at h
  rw [hu.eq_of_socketPath_eq hv h]

end SiteBuild

end LivePages
