import LivePages.Main
import LivePages.Proofs.Dom.EditRuns
import LivePages.Proofs.Dom.ListEdits
import LivePages.Proofs.Dom.Searches
import LivePages.Proofs.Dom.TemplateEquality
import LivePages.Proofs.Dom.VoidEdits
import LivePages.Proofs.Html.RoundTrip
import LivePages.Proofs.Html.Unambiguous
import LivePages.Proofs.Page.CanonicalForms
import LivePages.Proofs.Page.Independence
import LivePages.Proofs.Page.LoadingOrder
import LivePages.Proofs.Page.Refusals
import LivePages.Proofs.Page.ScriptOrder
import LivePages.Proofs.Page.ShortestReferences
import LivePages.Proofs.Page.Skeleton
import LivePages.Proofs.Site.Agreement
import LivePages.Proofs.Site.Artifacts
import LivePages.Proofs.Site.Duplicates
import LivePages.Proofs.Site.Exactness
import LivePages.Proofs.Site.Idempotence
import LivePages.Proofs.Site.PageOrder
import LivePages.Proofs.Site.PlanLimits
import LivePages.Proofs.Site.PlanText
import LivePages.Proofs.Site.Publishing
import LivePages.Proofs.Site.References
import LivePages.Proofs.Site.Routes
import LivePages.Proofs.Site.Shipping
import LivePages.Proofs.Widget.Identity
import LivePages.Proofs.Widget.Sandbox
import LivePages.Proofs.Widget.ScriptText
