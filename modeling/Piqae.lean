import Piqae.Route.Resolution
import Piqae.Route.Sequences
import Piqae.Queue.Reclaim
import Piqae.Node.Observation
import Piqae.Server.Commands
import Piqae.Server.Reversal
import Piqae.Server.Rollback
import Piqae.Server.Events
import Piqae.Server.BillingOrder
import Piqae.Server.Usage
import Piqae.SupportPack.Trust
import Piqae.Server.Legacy
import Piqae.Server.Creation
import Piqae.Server.Turns
import Piqae.Guardian.Releases
import Piqae.Guardian.Limits
import Piqae.Renderer.Code128
import Piqae.Renderer.Jpeg
import Piqae.Resources.Flights
import Piqae.Server.RenderResources
import Piqae.Server.Stranded
import Piqae.Server.Webhooks
import Piqae.Server.Tickets
import Piqae.Broker.Nonces
import Piqae.Broker.Consent
import Piqae.Outgoing.Addresses
import Piqae.Connectors.Cleanup
import Piqae.Content.Survival
import Piqae.Server.Previews
import Piqae.Server.Rewrap
import Piqae.Executor.Supervisor
