import SpaceportBazaar.EconomyView
import SpaceportBazaar.EconomyChange
import SpaceportBazaar.EconomyFailure
import SpaceportBazaar.EconomyOffers
import SpaceportBazaar.ServerClaims
import SpaceportBazaar.ServerVersions
import SpaceportBazaar.SessionHandshake
import SpaceportBazaar.SessionReconnect
import SpaceportBazaar.SessionShown
import SpaceportBazaar.SessionStop
import SpaceportBazaar.ExecutorOffers
import SpaceportBazaar.Commands
import SpaceportBazaar.RoundTrip
import SpaceportBazaar.DecideAgain
import SpaceportBazaar.DecideRoom
import SpaceportBazaar.DecideCommands
import SpaceportBazaar.DecideFloor
import SpaceportBazaar.DecideAid
import SpaceportBazaar.DecideListing
import SpaceportBazaar.DecideDeferred
import SpaceportBazaar.DecideTerms
import SpaceportBazaar.StrategyPasses
import SpaceportBazaar.OfferPrice
import SpaceportBazaar.MemoryHistory
import SpaceportBazaar.NeedHistory
import SpaceportBazaar.ReserveHistory
import SpaceportBazaar.LiveTail
import SpaceportBazaar.RequestIds
import SpaceportBazaar.WorldFailure
import SpaceportBazaar.WorldBalance
import SpaceportBazaar.WorldPlayers
import SpaceportBazaar.TradingLoopChronicle
